/-
Consistency of a unit: every index stays in its table, and some links go backwards.

Each entry lists the references it makes, in a fixed order. A reference is *sound* if its index
lies in the table it points into and, where the link must go backwards, before the slot that makes
it. Backward links are the components of types, the parents of scopes and the children of
statements; they make those three structures well founded. A unit is consistent if scope 0 is the
unit itself and every reference is sound; the first one that is not is what gets reported.
-/
import SafeDialect.Program.TranslationUnit

namespace SafeDialect

/-- The entry that makes a reference. -/
inductive Owner where
  | type (index : Nat)
  | scope (index : Nat)
  | record (index : Nat) (name : String)
  | function (index : Nat) (name : String)
  | variableDecl (index : Nat) (name : String)
  | statement (index : Nat)
  deriving DecidableEq

/-- An owner as messages name it. -/
def Owner.text : Owner → String
  | type i => s!"type #{i}"
  | scope i => s!"context #{i}"
  | record i name => s!"record '{name}' (#{i})"
  | function i name => s!"function '{name}' (#{i})"
  | variableDecl i name => s!"variable '{name}' (#{i})"
  | statement i => s!"statement #{i}"

/-- An index that an entry holds. -/
structure Reference where
  owner : Owner
  table : Table
  index : Nat
  /-- The slot that the index has to lie before, for links that go backwards. -/
  before : Option Nat
  deriving DecidableEq

/-- Why a unit is not consistent. -/
inductive Inconsistency where
  | noRoot
  | outOfRange (owner : Owner) (table : Table) (index size : Nat)
  | outOfOrder (owner : Owner) (table : Table) (index : Nat)
  deriving DecidableEq

/-- What is said about an inconsistent unit. -/
def Inconsistency.message : Inconsistency → String
  | noRoot => "the unit has no translation-unit context"
  | outOfRange owner table index size =>
    s!"{owner.text} refers to {table.word} #{index}, but the unit has {size}"
  | outOfOrder owner table index =>
    s!"{owner.text} refers to {table.word} #{index}, which does not precede it"

-- ============================================================ the references of an entry

namespace Owner

/-- A type that may stand anywhere in its table. -/
def toType (o : Owner) (t : QualifiedType) : Reference := ⟨o, .types, t.id.index, none⟩

/-- A type that has to come before the slot that is made of it. -/
def toEarlierType (o : Owner) (slot : Nat) (t : QualifiedType) : Reference :=
  ⟨o, .types, t.id.index, some slot⟩

def toScope (o : Owner) (id : ScopeId) : Reference := ⟨o, .scopes, id.index, none⟩

/-- A scope that has to come before the one inside it. -/
def toEarlierScope (o : Owner) (slot : Nat) (id : ScopeId) : Reference :=
  ⟨o, .scopes, id.index, some slot⟩

def toRecord (o : Owner) (id : RecordId) : Reference := ⟨o, .records, id.index, none⟩

def toFunction (o : Owner) (id : FunctionId) : Reference := ⟨o, .functions, id.index, none⟩

def toVariable (o : Owner) (id : VariableId) : Reference := ⟨o, .vars, id.index, none⟩

def toStmt (o : Owner) (id : StmtId) : Reference := ⟨o, .statements, id.index, none⟩

/-- A statement that has to come before the one that lists it. -/
def toEarlierStmt (o : Owner) (slot : Nat) (id : StmtId) : Reference :=
  ⟨o, .statements, id.index, some slot⟩

end Owner

/-- A layer refers to what it is around, which comes before it, or to its record. -/
def TypeShape.references (slot : Nat) : TypeShape → List Reference
  | pointer t | lvalueReference t | rvalueReference t | array t _ | synonym _ t =>
    [(Owner.type slot).toEarlierType slot t]
  | function ret params => (ret :: params).map ((Owner.type slot).toEarlierType slot)
  | record id => [(Owner.type slot).toRecord id]
  | builtin _ | enum _ | templateParam .. | dependent _ => []

/-- A scope refers to the one around it, which comes before it, and to the record or function that
it belongs to. -/
def Scope.references (slot : Nat) (s : Scope) : List Reference :=
  s.parent.toList.map ((Owner.scope slot).toEarlierScope slot) ++
    match s.kind with
    | .record id => [(Owner.scope slot).toRecord id]
    | .function id => [(Owner.scope slot).toFunction id]
    | .translationUnit | .nameSpace | .linkageBlock | .enum => []

/-- A record refers to its scope, its template, its arguments, and then to its members: fields,
bases and methods. -/
def RecordDecl.references (slot : Nat) (r : RecordDecl) : List Reference :=
  let o := Owner.record slot r.name
  o.toScope r.scope :: r.pattern.toList.map o.toRecord
    ++ (r.templateArgs.filterMap TemplateArg.type?).map o.toType
    ++ r.fields.map (o.toType ·.type) ++ r.bases.map (o.toType ·.type)
    ++ r.methods.map o.toFunction

/-- A function refers to its scope, its result, its parameters, its record, its body and its
template. -/
def FunctionDecl.references (slot : Nat) (f : FunctionDecl) : List Reference :=
  let o := Owner.function slot f.name
  o.toScope f.scope :: o.toType f.ret :: f.params.map o.toVariable
    ++ f.parent.toList.map o.toRecord ++ f.body.toList.map o.toStmt
    ++ f.pattern.toList.map o.toFunction

/-- The variable that a capture names. -/
def CaptureKind.captured? : CaptureKind → Option VariableId
  | byCopy id | byReference id => some id
  | thisPointer | thisCopy | array => none

/-- What a node refers to itself, its parts apart. -/
def Node.references (o : Owner) : Node → List Reference
  | declRef (.variableRef id) => [o.toVariable id]
  | declRef (.functionRef id) => [o.toFunction id]
  | declRef (.fieldRef id _) => [o.toRecord id]
  | freeCall callee _ | memberCall callee _ _ _ | operatorCall callee _ | construct callee _ =>
    callee.toList.map o.toFunction
  | lambda l =>
    l.record.toList.map o.toRecord
      ++ (l.captures.filterMap (·.kind.captured?)).map o.toVariable
  | nullPointer | integer _ | thisObject | member .. | unary .. | binary .. | conditional ..
  | cast .. | paren _ | defaultArgument _ | materializeTemporary _ | bindTemporary _
  | withCleanups _ | unsupported _ => []

/-- What an expression refers to, node by node. -/
def Expr.references (o : Owner) (e : Expr) : List Reference :=
  e.nodes.flatMap fun n => o.toType n.type :: n.node.references o

/-- A variable refers to its type, to what it belongs to, and to what its initializer refers to. -/
def VariableDecl.references (slot : Nat) (v : VariableDecl) : List Reference :=
  let o := Owner.variableDecl slot v.name
  o.toType v.type :: v.declStmt.toList.map o.toStmt ++ v.function.toList.map o.toFunction
    ++ v.init.toList.flatMap (·.references o)

/-- A statement refers to its parent, to its children, which come before it, to what it declares,
and to what its expressions refer to. -/
def Stmt.references (slot : Nat) (s : Stmt) : List Reference :=
  let o := Owner.statement slot
  s.parent.toList.map o.toStmt ++ s.children.map (o.toEarlierStmt slot)
    ++ s.declared.map o.toVariable ++ s.exprs.flatMap (·.references o)

-- ============================================================ consistent units

namespace TranslationUnit

/-- The number of entries of a table. -/
def tableSize (u : TranslationUnit) : Table → Nat
  | .types => u.types.size
  | .scopes => u.scopes.size
  | .records => u.records.size
  | .functions => u.functions.size
  | .vars => u.vars.size
  | .statements => u.statements.size

/-- Every reference of the unit, table by table and slot by slot. -/
def references (u : TranslationUnit) : List Reference :=
  u.types.shapes.toList.zipIdx.flatMap (fun (shape, slot) => shape.references slot)
    ++ u.scopes.toList.zipIdx.flatMap (fun (scope, slot) => scope.references slot)
    ++ u.records.toList.zipIdx.flatMap (fun (record, slot) => record.references slot)
    ++ u.functions.toList.zipIdx.flatMap (fun (function, slot) => function.references slot)
    ++ u.vars.toList.zipIdx.flatMap (fun (decl, slot) => decl.references slot)
    ++ u.statements.toList.zipIdx.flatMap (fun (stmt, slot) => stmt.references slot)

/-- What is wrong with a reference: its range is looked at before its order. -/
def flaw? (u : TranslationUnit) (r : Reference) : Option Inconsistency :=
  if u.tableSize r.table ≤ r.index then
    some (.outOfRange r.owner r.table r.index (u.tableSize r.table))
  else
    match r.before with
    | some slot => if slot ≤ r.index then some (.outOfOrder r.owner r.table r.index) else none
    | none => none

/-- Whether scope 0 is the unit itself. -/
def hasRoot (u : TranslationUnit) : Bool :=
  match u.scopes[0]? with
  | some scope => scope.kind == .translationUnit
  | none => false

/-- The first inconsistency of a unit. -/
def inconsistency? (u : TranslationUnit) : Option Inconsistency :=
  if u.hasRoot then u.references.findSome? u.flaw? else some .noRoot

end TranslationUnit

end SafeDialect
