/-
Deep const types: constant through and through.

Scalars are deep const, pointers and references are not, and an owning pointer is if it points to a
constant of a deep const type. A record of user code is if it is tagged so, has deep const members,
and leaves its copying and destruction to the compiler. In library code the tag alone counts, or a
tag that makes it depend on the template arguments.
-/
import SafeDialect.Classifier.Session

namespace SafeDialect.Inspector

open Inspect

/-- Whether a type is an owning pointer to a constant of a deep const type. -/
def deepConstOwner (i : Inspector) (ask : Ask) (t : QualifiedType) : Inspect Bool := do
  if ← i.setting.isOwningPtr t then
    match ← i.setting.templateArg t 0 with
    | some arg => return (← ask .deepConst arg).isGood && arg.isConst
    | none => return false
  else return false

-- ============================================================ records of user code

/-- What is wrong with a method of a deep const record. -/
def deepConstComplaint? (f : FunctionDecl) : Option String :=
  if f.isDefaulted then none
  else
    match f.kind with
    | .destructor => some "destructor must be 'default' for deep const"
    | .constructor true => some "copy/move constructor must be 'default' for deep const"
    | .copyAssign | .moveAssign =>
      some "copy/move assignment operator must be 'default' for deep const"
    | .constructor false | .free | .method | .conversion => none

def deepConstMethod (i : Inspector) (id : FunctionId) : Inspect Bool := do
  let f ← i.setting.unit.function id
  match deepConstComplaint? f with
  | some complaint =>
    remark f.location complaint
    return false
  | none => return true

/-- Whether the members of a record tagged as deep const are so: fields, then methods, then
bases. -/
def deepConstMembers (i : Inspector) (ask : Ask) (entered : Bool) (r : RecordDecl) :
    Inspect Verdict := do
  if r.isUnion then
    remark r.location "Union not supported yet"
    return .malformed
  else
    let fields ← allMembers entered (fun f => return (← ask .deepConst f.type).isGood)
      (fun f => (f.location, s!"member '{f.name}' is not deep const")) r.fields
    if !fields then return .malformed
    else if !(← r.methods.allM i.deepConstMethod) then return .malformed
    else
      let bases ← allMembers entered (fun b => return (← ask .deepConst b.type).isGood)
        (fun b => (b.location, "base class is not deep const")) r.bases
      return ⟨true, bases⟩

-- ============================================================ records of library code

/-- Whether the template argument at a position is safe and deep const, if it is a type. Remarks
stand at the record. -/
def argOfRecord (i : Inspector) (ask : Ask) (location : Location) (n : Nat) (arg : TemplateArg) :
    Inspect Bool := do
  match arg with
  | .type t =>
    let t ← i.setting.canonical t
    if !(← ask .heapSafe t).sound then
      let spelling ← i.setting.unit.spelling t
      remark location s!"template parameter {n}, '{spelling}' is not safe"
      return false
    else if !(← ask .deepConst t).isGood then
      let spelling ← i.setting.unit.spelling t
      remark location s!"template parameter {n}, '{spelling}' is not [[deep_const]]"
      return false
    else return true
  | .integral _ | .other _ => return true

/-- Whether a record has template arguments, and all types among them are safe and deep const. -/
def argsDeepConst (i : Inspector) (ask : Ask) (id : RecordId) : Inspect Bool := do
  let r ← i.setting.unit.record id
  if r.templateArgs.isEmpty then return false
  else r.templateArgs.zipIdx.allM fun (arg, n) => i.argOfRecord ask r.location n arg

-- ============================================================ the verdict

/-- The verdict on a record whose definition is that of `defined`. -/
def deepConstDefined (i : Inspector) (ask : Ask) (id defined : RecordId) : Inspect Verdict := do
  let r ← i.setting.unit.record defined
  inside (← i.setting.isSystemRecord defined) fun entered => do
    if (← get).inSystem then
      if r.has .deepConst then return .good
      else if r.has .deepConstWhenParams then return .flag (← i.argsDeepConst ask id)
      else return .other
    else if r.has .deepConst then i.deepConstMembers ask entered r
    else return .other

def deepConstRecord (i : Inspector) (ask : Ask) (id : RecordId) : Inspect Verdict := do
  match ← i.setting.definedRecord id with
  | some defined => guarded .deepConst defined .good (i.deepConstDefined ask id defined)
  | none => return .other

/-- Whether a type is deep const, and a sound one. -/
def deepConst (i : Inspector) (ask : Ask) (t : QualifiedType) : Inspect Verdict := do
  let t ← i.setting.canonical t
  let shape ← i.setting.shape t
  if shape.isReference || shape.isPointer then return .other
  else if shape.isScalar then return .good
  else if ← i.deepConstOwner ask t then return .good
  else if ← i.setting.isSafePtr t then return .other
  else if ← i.setting.isNullablePtr t then return .other
  else
    match shape with
    | .record id => i.deepConstRecord ask id
    | .templateParam .. => return .good
    | _ => return .other

end SafeDialect.Inspector
