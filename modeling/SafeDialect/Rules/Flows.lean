/-
Rules on where values flow: assignments, results, and arguments that are kept by an object.
-/
import SafeDialect.Rules.Run

namespace SafeDialect

open Check

namespace Setting

-- ============================================================ assignments

/-- Whether a value may flow into the place that an expression denotes. -/
def flowsInto (s : Setting) (destination value : Expr) : Check Bool :=
  speak do
    let x ← destination.extent s.unit
    s.mayFlow x value

/-- Whether a callee overloads assignment. -/
def isAssignment (s : Setting) : Option FunctionId → Result Bool
  | some callee => return (← s.unit.function callee).operator == some .assign
  | none => return false

/-- A built-in assignment of raw pointers, or an overloaded one to a stack only type. -/
def checkAssignment (s : Setting) (e : Expr) : Check PUnit := do
  match e.node with
  | .binary .assign lhs rhs =>
    if ← s.isRawPointer e.type then
      if ← s.flowsInto lhs rhs then return ⟨⟩
      else error e.location "(S5.1) assignment of raw pointer may extend scope"
    else return ⟨⟩
  | .operatorCall callee [lhs, rhs] =>
    if ← s.isAssignment callee then
      if (← verdict s .stackOnly lhs.type).sound then
        if ← s.flowsInto lhs rhs then return ⟨⟩
        else error e.location "(S5.1) assignment may extend scope"
      else return ⟨⟩
    else return ⟨⟩
  | _ => return ⟨⟩

def checkAssignments (s : Setting) : Check PUnit := do
  for f in ← s.userFunctions do
    for e in ← s.unit.bodyNodes f do s.checkAssignment e

-- ============================================================ results

/-- A stack only result comes from the caller: it lives as long as a parameter. -/
def checkReturn (s : Setting) (id : StmtId) : Check PUnit := do
  match (← s.unit.statement id).shape with
  | .giveBack (some value) =>
    if ← speak (s.mayFlow .parameter value) then return ⟨⟩
    else error value.location "(S5.1) return value may extend scope"
  | _ => return ⟨⟩

def checkReturns (s : Setting) : Check PUnit := do
  for f in ← s.userFunctions do
    let decl ← s.unit.function f
    if (← verdict s .stackOnly decl.ret).sound then
      for id in ← s.unit.bodyStmts f do s.checkReturn id

end Setting

-- ============================================================ arguments that are kept

mutual

/-- Whether an object is `this`, or part of it by way of members held by value. -/
def Expr.isPartOfThis (isArrow : Bool) : Expr → Bool
  | .mk _ _ node => node.isPartOfThis isArrow

def Node.isPartOfThis (isArrow : Bool) : Node → Bool
  | .paren inner | .withCleanups inner | .materializeTemporary inner => inner.isPartOfThis isArrow
  | .cast .implicit operand => operand.isPartOfThis isArrow
  | .thisObject => true
  | .member base _ viaArrow => !isArrow && base.isPartOfThis viaArrow
  | _ => false

end

/-- Whether a node is the name of a function. -/
def Node.isFunctionName : Node → Bool
  | .declRef (.functionRef _) => true
  | _ => false

/-- Whether an expression is a function or its address. -/
def Expr.isFunctionRef (e : Expr) : Bool :=
  match e.unwrapped.node with
  | .unary .addressOf operand => operand.unwrapped.node.isFunctionName
  | node => node.isFunctionName

/-- The lambda that a node is. -/
def Node.lambda? : Node → Option Lambda
  | .lambda l => some l
  | _ => none

namespace Setting

/-- What is wrong with keeping a capture. `ofThis` says that the keeper is part of `this`, and
`owner` is the record of the method around. -/
def captureComplaint (s : Setting) (ofThis : Bool) (owner : Option RecordId) :
    CaptureKind → Check (Option String)
  | .thisPointer => do
    let isNode ← match owner with
      | some id => if ofThis then pure false else s.derivesFromNode id
      | none => pure false
    return if ofThis || isNode then none
      else some "(S5.7) capture of 'this' unsafe to extend scope"
  | .thisCopy => return none
  | .byCopy id => do
    let v ← s.unit.variableDecl id
    if (← verdict s .heapSafe v.type).sound then return none
    else
      return if v.hasGlobalStorage then none else some "(S5.7) unsafe capture to extend scope"
  | .byReference _ => return some "(S5.7) unsafe capture to extend scope"
  | .array => return some "(S5.7) capture by array not allowed"

/-- Whether every capture may be kept, with an error at the first that may not. -/
def checkCaptures (s : Setting) (ofThis : Bool) (owner : Option RecordId) :
    List Capture → Check Bool
  | [] => return true
  | c :: rest => do
    match ← s.captureComplaint ofThis owner c.kind with
    | some complaint =>
      error c.location complaint
      return false
    | none => s.checkCaptures ofThis owner rest

/-- Checks an argument that is a lambda, or a variable that was initialized with one. Whether it is
either. -/
def checkAsLambda (s : Setting) (ofThis : Bool) (owner : Option RecordId) (arg : Expr) :
    Check Bool := do
  match arg.withoutTemporaries.node with
  | .lambda l =>
    let _ ← s.checkCaptures ofThis owner l.captures
    return true
  | .declRef (.variableRef id) =>
    let v ← s.unit.variableDecl id
    match v.init.bind (·.withoutTemporaries.node.lambda?) with
    | none => return false
    | some l =>
      if ← s.checkCaptures ofThis owner l.captures then return true
      else
        note arg.location "referenced from here"
        return true
  | _ => return false

/-- An argument that the object of a method keeps: a function, a lambda with captures that may be
kept, or, for a part of `this`, what lives as long as `this`. -/
def checkKeptArg (s : Setting) (ofThis : Bool) (owner : Option RecordId) (arg : Expr) :
    Check PUnit := do
  if arg.isFunctionRef then return ⟨⟩
  else if ← s.checkAsLambda ofThis owner arg then return ⟨⟩
  else
    let lives ← if ofThis then speak (s.mayFlow .object arg) else pure false
    if lives then return ⟨⟩
    else error arg.location "(S5.7) argument not safe to extend scope to 'this'"

def checkKeptArgs (s : Setting) (ofThis : Bool) (owner : Option RecordId) :
    List (VariableId × Expr) → Check PUnit
  | [] => return ⟨⟩
  | (param, arg) :: rest => do
    let v ← s.unit.variableDecl param
    if v.has .mayExtendToThis then s.checkKeptArg ofThis owner arg
    s.checkKeptArgs ofThis owner rest

/-- The kept arguments of a method call with a known callee. -/
def checkCall (s : Setting) (owner : Option RecordId) (e : Expr) : Check PUnit := do
  match e.node with
  | .memberCall (some callee) base isArrow args =>
    let f ← s.unit.function callee
    s.checkKeptArgs (base.isPartOfThis isArrow) owner (f.params.zip args)
  | _ => return ⟨⟩

def checkExtensions (s : Setting) : Check PUnit := do
  for f in ← s.userFunctions do
    let decl ← s.unit.function f
    for e in ← s.unit.bodyNodes f do s.checkCall decl.parent e

end Setting

end SafeDialect
