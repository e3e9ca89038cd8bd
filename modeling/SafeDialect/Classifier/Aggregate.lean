/-
Aggregates with rules of their own: unions and naked structs.

A union holds built-in types only, because nobody tracks which of its members is the current one. A
naked struct may hold pointers that would be unsafe elsewhere, and therefore has no bases, only
members that are safe or sound as naked kinds, and no method that could change them.
-/
import SafeDialect.Classifier.Session

namespace SafeDialect.Inspector

open Inspect

-- ============================================================ unions

/-- What is wrong with a union member of a type with the given layer. -/
def unionComplaint? : TypeShape → Option String
  | .pointer _ => some "(S1.4) raw pointers inside unions are prohibited"
  | .builtin _ | .templateParam .. => none
  | _ => some "(S1.4) non-primitives inside unions are prohibited"

/-- Whether a field may be in a union. -/
def unionField (i : Inspector) (f : Field) : Inspect Bool := do
  match unionComplaint? (← i.setting.shape f.type) with
  | some complaint =>
    remark f.location complaint
    return false
  | none => return true

/-- Whether a record, taken as a union, holds primitive members only. -/
def unionRecord (i : Inspector) (id : RecordId) : Inspect Bool := do
  match ← i.setting.definedRecord id with
  | some defined => (← i.setting.unit.record defined).fields.allM i.unionField
  | none => return false

-- ============================================================ naked structs

/-- Whether a field may be in a naked struct: it is safe, or a sound nullable pointer, or a sound
naked struct. The reasons why not come first, then the remark on the field. -/
def nakedField (i : Inspector) (ask : Ask) (f : Field) : Inspect Bool := do
  let t ← i.setting.canonical f.type
  if (← quietly (ask .heapSafe t)).sound then return true
  else
    let nullable ← quietly (ask .nullablePtr t)
    if nullable.applies then
      if nullable.sound then return true
      else
        let _ ← ask .nullablePtr t
        remark f.location s!"unsafe type at {i.setting.names.nullableLabel} declaration"
        return false
    else
      let naked ← quietly (ask .nakedStruct t)
      if naked.applies then
        if naked.sound then return true
        else
          let _ ← ask .nakedStruct t
          remark f.location "unsafe type at naked_struct declaration"
          return false
      else
        let _ ← ask .heapSafe t
        remark f.location "member not allowed at naked struct"
        return false

/-- Methods of a naked struct: constructors, the destructor, constant ones, and assignments that
are deleted, or defaulted in a record tagged as naked. -/
def isNakedMethod (r : RecordDecl) (f : FunctionDecl) : Bool :=
  match f.kind with
  | .destructor | .constructor _ => true
  | .copyAssign | .moveAssign =>
    f.isConst || f.isDeleted || (f.isDefaulted && r.has .nakedStruct)
  | .free | .method | .conversion => f.isConst

def nakedMethod (i : Inspector) (r : RecordDecl) (id : FunctionId) : Inspect Bool := do
  let f ← i.setting.unit.function id
  if isNakedMethod r f then return true
  else
    remark f.location "method not allowed at naked struct"
    return false

/-- Whether a record has the form of a naked struct. -/
def nakedRecord (i : Inspector) (ask : Ask) (id : RecordId) : Inspect Bool := do
  match ← i.setting.definedRecord id with
  | none => return false
  | some defined =>
    let r ← i.setting.unit.record defined
    match r.bases with
    | base :: _ =>
      remark base.location "inheritance not allowed at naked struct"
      return false
    | [] =>
      if ← r.fields.allM (i.nakedField ask) then r.methods.allM (i.nakedMethod r)
      else return false

/-- Whether a type is a naked struct, and a sound one. -/
def nakedStruct (i : Inspector) (ask : Ask) (t : QualifiedType) : Inspect Verdict := do
  match ← i.setting.definedRecordOf t with
  | some id =>
    if (← i.setting.unit.record id).has .nakedStruct then
      return ⟨true, ← i.nakedRecord ask id⟩
    else return .other
  | none => return .other

/-- Whether a type is a nullable pointer, and one to something safe. -/
def nullablePtr (i : Inspector) (ask : Ask) (t : QualifiedType) : Inspect Verdict := do
  let t ← i.setting.canonical t
  if ← i.setting.isNullablePtr t then
    match ← i.setting.pointee t with
    | some pointee => return ⟨true, (← ask .heapSafe pointee).sound⟩
    | none => return .malformed
  else return .other

-- ============================================================ stack only types

/-- Types whose values live on the stack only: pointers, references, nullable pointers, naked
structs and some iterators. -/
def stackOnly (i : Inspector) (t : QualifiedType) : Result Bool := do
  match ← i.setting.shape t with
  | .pointer _ | .lvalueReference _ | .rvalueReference _ => return true
  | .record _ =>
    if ← i.setting.isNullablePtr t then return true
    else
      match ← i.setting.definedRecordOf t with
      | some id =>
        let r ← i.setting.unit.record id
        if r.has .nakedStruct then return true
        else return i.setting.names.stackOnlyIterator.contains (← i.setting.unit.recordName id)
      | none => return false
  | _ => return false

end SafeDialect.Inspector
