/-
Extents: how long the place lives that a value is put into.

The extent of a destination is read off its expression. A member lives as long as the object it is
part of. What is not understood has an unknown extent, and nothing may flow there.
-/
import SafeDialect.Report.Finding
import SafeDialect.Setting.Kinds

namespace SafeDialect

inductive Extent where
  /-- Not understood. -/
  | unknown
  /-- As long as a local variable. -/
  | localVar (id : VariableId)
  /-- As long as the parameters of the function. -/
  | parameter
  /-- As long as the object that the method is called on, at least. -/
  | object
  deriving DecidableEq

/-- A step that may say something. -/
abbrev Speak (α : Type) := StateT Voice Result α

namespace Speak

def internalError (location : Location) : Speak PUnit := modify (·.sayInternalError location)

end Speak

/-- The extent of a variable. -/
def VariableDecl.extent (id : VariableId) (v : VariableDecl) : Extent :=
  if v.isParam then if v.has .mayExtendToThis then .object else .parameter
  else if v.hasGlobalStorage || v.has .mayExtendToThis then .object
  else .localVar id

mutual

/-- The extent of the place that an expression denotes. -/
def Expr.extent (u : TranslationUnit) : Expr → Speak Extent
  | .mk location _ node => node.extent u location

/-- The extent of the place that a node at a location denotes. -/
def Node.extent (u : TranslationUnit) (location : Location) : Node → Speak Extent
  | .paren inner | .withCleanups inner | .materializeTemporary inner => inner.extent u
  | .cast .implicit operand => operand.extent u
  | .declRef (.variableRef id) => return (← u.variableDecl id).extent id
  | .declRef (.fieldRef ..) => do
    Speak.internalError location
    return .unknown
  | .member base _ _ => base.extent u
  | .thisObject => return .object
  | _ => return .unknown

end

-- ============================================================ nested blocks

namespace TranslationUnit

/-- Whether a statement is among another one and the statements around it. -/
def isAround (u : TranslationUnit) (outer : StmtId) : (steps : Nat) → Option StmtId → Result Bool
  | _, none => .ok false
  | 0, some _ => .error .endless
  | steps + 1, some id =>
    if id = outer then .ok true
    else
      match u.parentStmt id with
      | .error fault => .error fault
      | .ok parent => u.isAround outer steps parent

/-- Whether a local lives at least as long as another: the statement around its declaration is
around the declaration of the other. -/
def outlives (u : TranslationUnit) (source target : VariableId) : Result Bool := do
  let from? := (← u.variableDecl source).declStmt
  let to? := (← u.variableDecl target).declStmt
  match from?, to? with
  | some sourceStmt, some targetStmt =>
    match ← u.parentStmt sourceStmt with
    | some block => u.isAround block (u.statements.size + 1) (← u.parentStmt targetStmt)
    | none => return false
  | _, _ => return false

end TranslationUnit

end SafeDialect
