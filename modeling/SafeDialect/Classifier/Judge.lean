/-
Judging types: safety, determinism, and the verdict on every aspect.

Each aspect is a first-match case analysis of the canonical type that asks about its parts:
pointees, template arguments, fields and bases. `judgeWithin` ties the knot with a bound on how deep
the questions may nest. Questions nest without end only if a type contains itself through template
arguments or naked members: a record in progress is not entered again, so a chain of questions
enters each record once for each of three aspects, and between two entries it goes through template
arguments, each of them another type.
-/
import SafeDialect.Classifier.Aggregate
import SafeDialect.Classifier.Container
import SafeDialect.Classifier.DeepConst

namespace SafeDialect.Inspector

open Inspect

-- ============================================================ safety

/-- Whether the members of a record with a definition are safe. -/
def safeMembers (i : Inspector) (ask : Ask) (entered : Bool) (id : RecordId) : Inspect Bool := do
  let r ← i.setting.unit.record id
  if r.isUnion then i.unionRecord id
  else
    allFieldsAndBases entered r (fun f => return (← ask .heapSafe f.type).sound)
      (fun b => return (← ask .heapSafe b.type).sound) "safe"

/-- Whether a record with a definition is safe: by name, or by its members. Library records that
are not safe by name are not looked into, unless they are inspected like user code. -/
def safeDefined (i : Inspector) (ask : Ask) (id : RecordId) : Inspect Bool := do
  let name ← i.setting.unit.recordName id
  if i.setting.isSafeTypeName name then return true
  else
    let r ← i.setting.unit.record id
    let isSystem ← i.setting.isSystemRecord id
    if isSystem && !i.userCodeMode then
      remarkOnMember false r.location s!"system library type '{name}' is not safe"
      return false
    else inside isSystem fun entered => i.safeMembers ask entered id

def safeRecord (i : Inspector) (ask : Ask) (id : RecordId) : Inspect Bool := do
  match ← i.setting.definedRecord id with
  | some defined => guarded .heapSafe defined true (i.safeDefined ask defined)
  | none => return false

/-- Whether a smart pointer points to something safe. -/
def safePointee (i : Inspector) (ask : Ask) (t : QualifiedType) : Inspect Bool := do
  match ← i.setting.pointee t with
  | some pointee => return (← ask .heapSafe pointee).sound
  | none => return false

/-- Whether a type that is neither scalar nor stack only is safe. -/
def safeCompound (i : Inspector) (ask : Ask) (t : QualifiedType) (shape : TypeShape) :
    Inspect Bool := do
  let vector ← i.vector ask t
  if vector.applies then return vector.sound
  else
    let hashmap ← i.hashmap ask t
    if hashmap.applies then return hashmap.sound
    else if ← i.setting.isSafePtr t then i.safePointee ask t
    else
      match shape with
      | .record id => i.safeRecord ask id
      | .templateParam .. => return true
      | _ => return false

/-- Whether a type is safe. -/
def safe (i : Inspector) (ask : Ask) (t : QualifiedType) : Inspect Bool := do
  let t ← i.setting.canonical t
  if ← i.stackOnly t then return false
  else
    let shape ← i.setting.shape t
    if shape.isScalar then return true
    else if ← i.setting.isAwaitable t then return false
    else i.safeCompound ask t shape

-- ============================================================ determinism

/-- Whether a record with a definition is deterministic: by name, as a union with an initialized
member, or by its members that have no initializer. -/
def deterministicDefined (i : Inspector) (ask : Ask) (id : RecordId) : Inspect Bool := do
  if i.setting.isSafeTypeName (← i.setting.unit.recordName id) then return true
  else
    let r ← i.setting.unit.record id
    inside (← i.setting.isSystemRecord id) fun entered => do
      if r.isUnion then return r.fields.any (·.hasInitializer)
      else
        allFieldsAndBases entered r
          (fun f => do
            if f.hasInitializer then return true
            else return (← ask .deterministic f.type).sound)
          (fun b => return (← ask .deterministic b.type).sound) "deterministic"

def deterministicRecord (i : Inspector) (ask : Ask) (id : RecordId) : Inspect Bool := do
  match ← i.setting.definedRecord id with
  | some defined => guarded .deterministic defined true (i.deterministicDefined ask defined)
  | none => return false

/-- Whether a type is deterministic by its kind: awaitables, lambdas, smart and nullable
pointers. -/
def isDeterministicKind (i : Inspector) (t : QualifiedType) : Result Bool := do
  if ← i.setting.isAwaitable t then return true
  else if ← i.setting.isLambda t then return true
  else if ← i.setting.isSafePtr t then return true
  else i.setting.isNullablePtr t

/-- Whether a type is deterministic. Scalars are so only if they are initialized, which is for the
one who asks to know. -/
def deterministic (i : Inspector) (ask : Ask) (t : QualifiedType) : Inspect Bool := do
  let t ← i.setting.canonical t
  let shape ← i.setting.shape t
  if shape.isReference then return true
  else if shape.isPointer || shape.isScalar then return false
  else if ← i.isDeterministicKind t then return true
  else
    match shape with
    | .record id => i.deterministicRecord ask id
    | .templateParam .. => return true
    | _ => return false

-- ============================================================ every aspect

/-- The verdict on a type, given how its parts are asked about. -/
def assess (i : Inspector) (ask : Ask) : Aspect → QualifiedType → Inspect Verdict
  | .heapSafe, t => return .flag (← i.safe ask t)
  | .deterministic, t => return .flag (← i.deterministic ask t)
  | .stackOnly, t => return .flag (← i.stackOnly t)
  | .nullablePtr, t => i.nullablePtr ask t
  | .nakedStruct, t => i.nakedStruct ask t
  | .deepConst, t => i.deepConst ask t

/-- The verdict on a type, with questions nested no deeper than the bound. -/
def judgeWithin (i : Inspector) : (depth : Nat) → Ask
  | 0 => fun _ _ => throw .endless
  | depth + 1 => i.assess (i.judgeWithin depth)

/-- How deep questions nest in a unit whose types do not contain themselves. -/
def depth (i : Inspector) : Nat :=
  (i.setting.unit.types.size + 2) * (3 * i.setting.unit.records.size + 3)

/-- The verdict on an aspect of a type. -/
def judge (i : Inspector) : Ask := i.judgeWithin i.depth

end SafeDialect.Inspector
