/-
The rules, by name. They run in the order in which they are listed.
-/

namespace SafeDialect

/-- What is looked at in a check. -/
inductive Rule where
  | recordDecl
  | varDecl
  | rawPointerAssignment
  | returnValue
  | mayExtend
  | determinism
  deriving DecidableEq

namespace Rule

/-- Every rule, in the order in which rules run. -/
def all : List Rule :=
  [recordDecl, varDecl, rawPointerAssignment, returnValue, mayExtend, determinism]

/-- The name of a rule in findings and on the command line. -/
def name : Rule → String
  | recordDecl => "record-decl"
  | varDecl => "var-decl"
  | rawPointerAssignment => "raw-pointer-assignment"
  | returnValue => "return"
  | mayExtend => "may-extend"
  | determinism => "determinism"

/-- The rule of a name. -/
def ofName? (name : String) : Option Rule := all.find? (·.name == name)

/-- What is said about a name that is no rule's. -/
def unknownMessage (name : String) : String := s!"unknown rule `{name}`"

/-- The rules that run if none are chosen. -/
def default (determinism : Bool) : List Rule :=
  all.filter fun r => r != Rule.determinism || determinism

/-- The chosen rules, each once, in the order in which rules run. Sorting them into that order and
dropping repetitions comes to the same, see `selection_eq_sortedOnce`. -/
def selection (chosen : List Rule) : List Rule := all.filter chosen.contains

end Rule

end SafeDialect
