/-
Flows: whether a value lives long enough for the place it is put into.

A value may flow into an extent if everything it may be made of lives that long. Wrappers, members
and operators hand the question on to their parts, a conditional to both branches, a construction to
all arguments, a call to its receiver and its arguments. A call on a smart pointer is accepted as it
stands. Lambdas and references to functions are not accepted, and an expression that the checker
does not know is an internal error.
-/
import SafeDialect.Lifetime.Extent

namespace SafeDialect

/-- Whether the value of a variable may flow into an extent. -/
def TranslationUnit.variableFlows (u : TranslationUnit) (x : Extent) (id : VariableId) :
    Result Bool := do
  let v ← u.variableDecl id
  if v.isParam then
    match x with
    | .localVar _ | .parameter => return true
    | .object => return v.has .mayExtendToThis
    | .unknown => return false
  else if v.hasGlobalStorage || v.has .mayExtendToThis then return true
  else
    match x with
    | .localVar target => u.outlives id target
    | .unknown | .parameter | .object => return false

/-- Whether what a name refers to may flow into an extent. -/
def DeclRef.flows (u : TranslationUnit) (x : Extent) (location : Location) : DeclRef → Speak Bool
  | .variableRef id => u.variableFlows x id
  | .functionRef _ => return false
  | .fieldRef .. => do
    Speak.internalError location
    return false

mutual

/-- Whether the value of an expression may flow into an extent that is known. -/
def Expr.flows (s : Setting) (x : Extent) : Expr → Speak Bool
  | .mk location _ node => node.flows s x location

/-- Whether the value of a node at a location may flow into an extent that is known. -/
def Node.flows (s : Setting) (x : Extent) (location : Location) : Node → Speak Bool
  | .thisObject | .nullPointer | .integer _ => return true
  | .declRef target => target.flows s.unit x location
  | .freeCall callee args =>
    match callee with
    | none => return false
    | some id => do
      let f ← s.unit.function id
      Expr.argsFlow s x args f.params
  | .memberCall callee base _ args =>
    match callee with
    | none => return false
    | some id => do
      let f ← s.unit.function id
      if ← s.isSafePtr base.type then return true
      else if ← base.flows s x then Expr.argsFlow s x args f.params
      else return false
  | .operatorCall callee args =>
    match callee with
    | none => return false
    | some id => do
      let f ← s.unit.function id
      if f.isInstanceMethod then Expr.receiverFlows s x location args f.params
      else Expr.argsFlow s x args f.params
  | .member base _ _ => base.flows s x
  | .unary _ operand | .cast _ operand => operand.flows s x
  | .paren inner | .defaultArgument inner | .materializeTemporary inner | .bindTemporary inner
  | .withCleanups inner => inner.flows s x
  | .binary _ lhs rhs => do
    if ← lhs.flows s x then rhs.flows s x else return false
  | .conditional _ thenExpr elseExpr => do
    if ← thenExpr.flows s x then elseExpr.flows s x else return false
  | .construct _ args => Expr.allFlow s x args
  | .lambda _ => return false
  | .unsupported _ => do
    Speak.internalError location
    return false

/-- Whether all of several values may flow. -/
def Expr.allFlow (s : Setting) (x : Extent) : List Expr → Speak Bool
  | [] => return true
  | e :: rest => do
    if ← e.flows s x then Expr.allFlow s x rest else return false

/-- Whether the arguments of a call may flow. There have to be as many as parameters. -/
def Expr.argsFlow (s : Setting) (x : Extent) : List Expr → List VariableId → Speak Bool
  | [], [] => return true
  | arg :: args, param :: params => do
    let _ ← s.unit.variableDecl param
    if ← arg.flows s x then Expr.argsFlow s x args params else return false
  | _, _ => return false

/-- Whether the receiver of an instance operator, which is its first argument, and the other
arguments may flow. -/
def Expr.receiverFlows (s : Setting) (x : Extent) (location : Location) :
    List Expr → List VariableId → Speak Bool
  | [], _ => do
    Speak.internalError location
    return false
  | receiver :: args, params => do
    if ← s.isSafePtr receiver.type then return true
    else if ← receiver.flows s x then Expr.argsFlow s x args params
    else return false

end

/-- Whether the value of an expression may flow into an extent. Nothing flows into an unknown
one. -/
def Setting.mayFlow (s : Setting) (x : Extent) (e : Expr) : Speak Bool :=
  if x = .unknown then return false else e.flows s x

end SafeDialect
