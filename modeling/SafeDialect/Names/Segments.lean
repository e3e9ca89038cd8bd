/-
Cutting qualified names at their `::` separators.

Separators are found from the left when a name is cut into all of its segments, and from the right
when its last segment is cut off. The two differ only where more than two colons stand together.
-/

namespace SafeDialect.Names

/-- The segments of a name; `current` holds the characters of the segment being read, last
first. -/
def segmentsFrom (current : List Char) : List Char → List String
  | ':' :: ':' :: rest => String.ofList current.reverse :: segmentsFrom [] rest
  | c :: rest => segmentsFrom (c :: current) rest
  | [] => [String.ofList current.reverse]

/-- The segments of a name, empty ones included. -/
def segments (name : String) : List String := segmentsFrom [] name.toList

/-- Cuts a reversed text at its first separator. -/
def cutReversed (after : List Char) : List Char → Option (List Char × List Char)
  | ':' :: ':' :: before => some (before, after)
  | c :: before => cutReversed (c :: after) before
  | [] => none

/-- What stands before the last separator of a name, and what stands after it. A name without
separator has nothing before it. -/
def splitLast (name : String) : String × String :=
  match cutReversed [] name.toList.reverse with
  | some (before, after) => (String.ofList before.reverse, String.ofList after)
  | none => ("", name)

end SafeDialect.Names
