/-
Verdicts, and the aspects of types that they are about.

A verdict has two sides: whether the type is of the kind in question, and whether it is sound as
one. A naked struct with a bad member is a naked struct, and not a sound one; that calls for another
message than a type that is no naked struct at all.
-/

namespace SafeDialect

structure Verdict where
  /-- The type is of the kind in question. -/
  applies : Bool
  /-- The type is sound as one of the kind. -/
  sound : Bool
  deriving DecidableEq

namespace Verdict

/-- Not of the kind. -/
def other : Verdict := ⟨false, false⟩

/-- Of the kind and sound. -/
def good : Verdict := ⟨true, true⟩

/-- Of the kind and not sound. -/
def malformed : Verdict := ⟨true, false⟩

/-- The verdict of a question with a plain answer. -/
def flag (b : Bool) : Verdict := ⟨b, b⟩

def isGood (v : Verdict) : Bool := v.applies && v.sound

end Verdict

/-- What can be asked about a type. -/
inductive Aspect where
  /-- May be held and passed without danger of dangling. -/
  | heapSafe
  /-- Has no source of irreproducible behaviour. -/
  | deterministic
  /-- Lives on the stack only. -/
  | stackOnly
  /-- A nullable pointer, to something safe. -/
  | nullablePtr
  /-- A naked struct, with members that it may have. -/
  | nakedStruct
  /-- Constant through and through. -/
  | deepConst
  deriving DecidableEq

namespace Aspect

/-- Whether a verdict calls for an explanation. -/
def isFailure : Aspect → Verdict → Bool
  | heapSafe, v | deterministic, v => !v.sound
  | stackOnly, _ => false
  | nullablePtr, v | nakedStruct, v | deepConst, v => v.applies && !v.sound

end Aspect

end SafeDialect
