/-
Rules on declarations: records, variables, and the determinism of variables.
-/
import SafeDialect.Rules.Run

namespace SafeDialect.Setting

open Check

-- ============================================================ records

/-- A naked struct has the form of one. Other records are safe, and deep const if they are tagged
so. -/
def checkRecord (s : Setting) (id : RecordId) : Check PUnit := do
  let r ← s.unit.record id
  let i := s.inspector
  if r.has .nakedStruct then
    if ← quiet (i.nakedRecord i.judge id) then return ⟨⟩
    else
      errorExplainedBy r.location "unsafe naked_struct declaration" (i.nakedRecord i.judge id)
  else
    if r.has .deepConst then
      if (← quiet (i.deepConstRecord i.judge id)).sound then pure ⟨⟩
      else
        errorExplainedBy r.location "unsafe deep_const declaration" (i.deepConstRecord i.judge id)
    if ← quiet (i.safeRecord i.judge id) then return ⟨⟩
    else errorExplainedBy r.location "unsafe type declaration" (i.safeRecord i.judge id)

/-- Lambdas, templates and implicit instantiations are checked where they are used. -/
def checkRecords (s : Setting) : Check PUnit := do
  for id in ← s.userRecords do
    let r ← s.unit.record id
    if r.isLambda || r.isTemplate || r.isImplicitInstantiation then pure ⟨⟩
    else s.checkRecord id

-- ============================================================ variables

/-- The initializer of a reference that is no parameter: there has to be one, and no temporary.
Whether the variable passes. -/
def checkReferenceInit (v : VariableDecl) : Check Bool := do
  match v.init with
  | none =>
    error v.location "(S5.3) reference without initializer is prohibited"
    return false
  | some init =>
    match init.node with
    | .withCleanups _ =>
      error init.location "(S5.3) reference with temporary initializer is prohibited"
      return false
    | _ => return true

/-- The type that a variable is judged by: what a reference to a constant refers to, and else the
canonical type. -/
def judgedType (s : Setting) (c : QualifiedType) : Result QualifiedType := do
  match (← s.shape c).referent? with
  | some referent =>
    let inner ← s.canonical referent
    return if inner.isConst then inner.withoutConst else c
  | none => return c

def checkPointerVariable (s : Setting) (v : VariableDecl) (pointee : QualifiedType) :
    Check PUnit := do
  if s.config.options.disableRawPointers then
    error v.location "(S1.3) raw pointer declaration is prohibited"
  else if !(← verdict s .heapSafe pointee).sound then
    error v.location "(S5.3) raw pointer of unsafe type is prohibited"
  else if !v.isParamOrCatch && v.init.isNone then
    error v.location "(S1.3) raw pointer variable type must have initializer"
  else return ⟨⟩

/-- The kinds that may be on the stack although they are not safe: nullable pointers, naked structs
and lambdas. -/
def checkStackVariable (s : Setting) (v : VariableDecl) (t : QualifiedType) : Check PUnit := do
  let mayExtend := v.has .mayExtendToThis
  let nullable ← verdict s .nullablePtr t
  if nullable.applies then
    if nullable.sound then return ⟨⟩
    else
      error v.location "unsafe nullable_ptr at variable declaration"
      explain s .nullablePtr t
  else
    let naked ← verdict s .nakedStruct t
    if naked.applies then
      if !naked.sound then
        error v.location "unsafe naked_struct at variable declaration"
        explain s .nakedStruct t
      else if mayExtend then
        error v.location "may_extend not implemented for naked struct variables yet"
      else return ⟨⟩
    else if ← s.isLambda t then
      if mayExtend then error v.location "may_extend not implemented for lambda"
      else return ⟨⟩
    else
      error v.location "unsafe type at variable declaration"
      explain s .heapSafe t

/-- The variables of types that are not safe. -/
def checkUnsafeVariable (s : Setting) (v : VariableDecl) (t : QualifiedType) : Check PUnit := do
  let shape ← s.shape t
  match shape.referent? with
  | some referent =>
    if (← verdict s .heapSafe referent).sound then return ⟨⟩
    else error v.location "(S5.3) non-const reference of unsafe type is prohibited"
  | none =>
    if ← s.isStdFunction t then return ⟨⟩
    else if ← s.isAwaitable t then return ⟨⟩
    else
      match shape.pointee? with
      | some pointee => s.checkPointerVariable v pointee
      | none => s.checkStackVariable v t

/-- A variable by the type that it is judged by. -/
def checkVariableType (s : Setting) (v : VariableDecl) (t : QualifiedType) : Check PUnit := do
  match ← s.unionRecord t with
  | some id =>
    let i := s.inspector
    if ← quiet (i.unionRecord id) then return ⟨⟩
    else errorExplainedBy v.location "unsafe union at variable declaration" (i.unionRecord id)
  | none =>
    let deepConst ← verdict s .deepConst t
    if deepConst.applies && !deepConst.sound then
      error v.location "unsafe deep_const attribute at variable declaration"
      explain s .deepConst t
    else if (← verdict s .heapSafe t).sound then return ⟨⟩
    else s.checkUnsafeVariable v t

/-- Variables of constructors and assignments are left to the rule on records. -/
def isExempt (s : Setting) (v : VariableDecl) : Result Bool := do
  match v.function with
  | some owner =>
    let f ← s.unit.function owner
    return f.isConstructor || f.isCopyOrMoveAssign
  | none => return false

def checkVariable (s : Setting) (id : VariableId) : Check PUnit := do
  let v ← s.unit.variableDecl id
  if ← s.isExempt v then return ⟨⟩
  else
    let c ← s.canonical v.type
    let needsInit := !v.isParamOrCatch
    let passes ← if (← s.isReference c) && needsInit then checkReferenceInit v else pure true
    if passes then s.checkVariableType v (← s.judgedType c) else return ⟨⟩

def checkVariables (s : Setting) : Check PUnit := do
  for id in ← s.userVariables do s.checkVariable id

-- ============================================================ determinism

/-- Whether the determinism of a variable matters: it is a local of a function that is not tagged as
non-deterministic. -/
def needsDeterminism (s : Setting) (v : VariableDecl) : Result Bool := do
  match v.kind with
  | .localVar | .staticLocal =>
    match v.function with
    | some owner => return !(← s.unit.function owner).has .nonDeterministic
    | none => return true
  | .param | .catchParam | .global => return false

def checkDeterminismOf (s : Setting) (id : VariableId) : Check PUnit := do
  let v ← s.unit.variableDecl id
  if ← s.needsDeterminism v then
    let c ← s.canonical v.type
    if (← verdict s .deterministic c).sound then return ⟨⟩
    else if (← s.shape c).isRecord then
      error v.location "(D2.1) variable type is not deterministic"
      explain s .deterministic c
    else if v.init.isNone then error v.location "(D2) variable type must have initializer"
    else return ⟨⟩
  else return ⟨⟩

def checkDeterminism (s : Setting) : Check PUnit := do
  for id in ← s.userVariables do s.checkDeterminismOf id

end SafeDialect.Setting
