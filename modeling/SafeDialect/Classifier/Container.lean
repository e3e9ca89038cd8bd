/-
Containers: vectors and hash maps, judged by their template arguments.

A vector needs a safe element. A hash map needs a key that is safe and deep const, a safe value, and
a hasher and an equality that are safe, deep const, and callable without side effect. Remarks on an
argument stand at the container.
-/
import SafeDialect.Classifier.Session

namespace SafeDialect.Inspector

open Inspect

/-- The place of the record that a type is. -/
def containerLocation (i : Inspector) (t : QualifiedType) : Result Location := do
  match ← i.setting.recordOf t with
  | some id => return (← i.setting.unit.record id).location
  | none => return .unknown

/-- A remark at the place of a container. -/
def remarkAtContainer (i : Inspector) (t : QualifiedType) (message : String) : Inspect PUnit := do
  remark (← i.containerLocation t) message

/-- The template argument at a position, with a remark if it is missing. -/
def requiredArg (i : Inspector) (t : QualifiedType) (n : Nat) : Inspect (Option QualifiedType) := do
  match ← i.setting.templateArg t n with
  | some arg => return some arg
  | none =>
    i.remarkAtContainer t s!"template parameter {n} is not safe"
    return none

/-- A remark on the template argument at a position. -/
def remarkOnArg (i : Inspector) (t : QualifiedType) (n : Nat) (arg : QualifiedType)
    (complaint : String) : Inspect PUnit := do
  let location ← i.containerLocation t
  let spelling ← i.setting.unit.spelling arg
  remark location s!"template parameter {n}, '{spelling}' {complaint}"

def argIsSafe (i : Inspector) (ask : Ask) (t : QualifiedType) (n : Nat) (arg : QualifiedType) :
    Inspect Bool := do
  if (← ask .heapSafe arg).sound then return true
  else
    i.remarkOnArg t n arg "is not safe"
    return false

def argIsDeepConst (i : Inspector) (ask : Ask) (t : QualifiedType) (n : Nat)
    (arg : QualifiedType) : Inspect Bool := do
  if (← ask .deepConst arg).isGood then return true
  else
    i.remarkOnArg t n arg "is not [[deep_const]]"
    return false

def safeArg (i : Inspector) (ask : Ask) (t : QualifiedType) (n : Nat) : Inspect Bool := do
  match ← i.requiredArg t n with
  | some arg => i.argIsSafe ask t n arg
  | none => return false

def safeDeepConstArg (i : Inspector) (ask : Ask) (t : QualifiedType) (n : Nat) :
    Inspect Bool := do
  match ← i.requiredArg t n with
  | some arg => do
    if ← i.argIsSafe ask t n arg then i.argIsDeepConst ask t n arg else return false
  | none => return false

/-- Whether every call operator is without side effect, with a remark on the first that is
not. -/
def allPure (i : Inspector) (message : String) : List FunctionId → Inspect Bool
  | [] => return true
  | op :: rest => do
    if ← i.setting.isPure op then i.allPure message rest
    else
      remark (← i.setting.unit.function op).location message
      return false

/-- Whether an argument that is safe and deep const can be called without side effect: it has call
operators, and all of them are so. -/
def argIsPure (i : Inspector) (t : QualifiedType) (n : Nat) (arg : QualifiedType) :
    Inspect Bool := do
  let spelling ← i.setting.unit.spelling arg
  let message := s!"template parameter {n}, '{spelling}' must have a [[no_side_effect]] operator()"
  match ← i.setting.definedRecordOf arg with
  | none =>
    i.remarkAtContainer t message
    return false
  | some id =>
    match ← i.setting.callOperators id with
    | [] =>
      i.remarkAtContainer t message
      return false
    | operators => i.allPure message operators

/-- Whether the argument at a position is a safe and deep const function object without side
effect. -/
def pureArg (i : Inspector) (ask : Ask) (t : QualifiedType) (n : Nat) : Inspect Bool := do
  match ← i.requiredArg t n with
  | none => return false
  | some arg =>
    if ← i.argIsSafe ask t n arg then
      if ← i.argIsDeepConst ask t n arg then i.argIsPure t n arg else return false
    else return false

/-- Whether a type is a vector, and one of safe elements. -/
def vector (i : Inspector) (ask : Ask) (t : QualifiedType) : Inspect Verdict := do
  if i.setting.names.vector.contains (← i.setting.typeName t) then
    return ⟨true, ← i.safeArg ask t 0⟩
  else return .other

/-- Whether the arguments of a hash map are what they have to be. -/
def hashmapArgs (i : Inspector) (ask : Ask) (t : QualifiedType) : Inspect Bool := do
  if ← i.safeDeepConstArg ask t 0 then
    if ← i.safeArg ask t 1 then
      if ← i.pureArg ask t 2 then i.pureArg ask t 3 else return false
    else return false
  else return false

/-- Whether a type is a hash map with rules, and a sound one. -/
def hashmap (i : Inspector) (ask : Ask) (t : QualifiedType) : Inspect Verdict := do
  if !i.setting.names.hashmapRules then return .other
  else if i.setting.names.hashmap.contains (← i.setting.typeName t) then
    return ⟨true, ← i.hashmapArgs ask t⟩
  else return .other

end SafeDialect.Inspector
