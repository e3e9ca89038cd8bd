/-
The database of library names that are trusted without inspection.

The names are kept sorted by code points, each once.
-/

namespace SafeDialect

/-- Puts a name into its place in a sorted list, if it is not there yet. -/
def insertSorted (name : String) : List String → List String
  | [] => [name]
  | head :: tail =>
    if name < head then name :: head :: tail
    else if name = head then head :: tail
    else head :: insertSorted name tail

/-- Puts names into their places, one after the other. -/
def insertAllSorted (names : List String) (sorted : List String) : List String :=
  names.foldl (fun acc name => insertSorted name acc) sorted

/-- Trusted types and functions, by qualified name. -/
structure SafeLibrary where
  types : List String
  functions : List String
  deriving DecidableEq

namespace SafeLibrary

/-- Nothing is trusted. -/
def empty : SafeLibrary := ⟨[], []⟩

instance : Inhabited SafeLibrary := ⟨empty⟩

/-- Trusts types, each once. -/
def addTypes (l : SafeLibrary) (names : List String) : SafeLibrary :=
  { l with types := insertAllSorted names l.types }

/-- Trusts functions, each once. -/
def addFunctions (l : SafeLibrary) (names : List String) : SafeLibrary :=
  { l with functions := insertAllSorted names l.functions }

/-- Whether a type is trusted by its qualified name. -/
def isSafeType (l : SafeLibrary) (name : String) : Bool := l.types.contains name

/-- Whether a function is trusted by its qualified name. -/
def isSafeFunction (l : SafeLibrary) (name : String) : Bool := l.functions.contains name

end SafeLibrary

end SafeDialect
