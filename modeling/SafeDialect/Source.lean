/-
Places in source text: byte spans, source files and locations.

A location may lack a file. Such a location, and one in a file that the unit does not list,
counts as library code: only what is known to be user code is checked as user code.
-/
import SafeDialect.Fault

namespace SafeDialect

/-- A byte range inside one source file. -/
structure Span where
  start : Nat
  len : Nat
  deriving DecidableEq, Inhabited

/-- The span from one offset up to another. -/
def Span.between (start stop : Nat) : Result Span :=
  if start ≤ stop then .ok ⟨start, stop - start⟩ else .error (.reversedSpan start stop)

/-- The index of a source file. -/
structure FileId where
  index : Nat
  deriving DecidableEq

/-- A source file; a system file holds library code. -/
structure SourceFile where
  path : String
  isSystem : Bool
  deriving DecidableEq

/-- A place in the translation unit. -/
structure Location where
  file : Option FileId
  span : Span
  deriving DecidableEq

/-- The location of something that has none. -/
def Location.unknown : Location := ⟨none, ⟨0, 0⟩⟩

instance : Inhabited Location := ⟨.unknown⟩

/-- Whether the location names a file at all. -/
def Location.isValid (loc : Location) : Bool := loc.file.isSome

end SafeDialect
