/-
Why an analysis can stop without an answer.

A translation unit is a family of tables whose entries refer to each other by index. Nothing in
the types keeps an index inside its table, so each look-up may fail, and a unit whose entries
contain themselves has no finite unfolding. Both are faults: causes, not findings about the
checked program. A consistent unit never meets the first one.
-/

namespace SafeDialect

/-- The tables of a translation unit that other entries point into. -/
inductive Table where
  | types
  | scopes
  | records
  | functions
  | vars
  | statements
  deriving DecidableEq

/-- The word for a table's entries in messages. -/
def Table.word : Table → String
  | .types => "type"
  | .scopes => "context"
  | .records => "record"
  | .functions => "function"
  | .vars => "variable"
  | .statements => "statement"

/-- Why a question about a unit has no answer. -/
inductive Fault where
  /-- An index was followed that names no entry of its table. -/
  | missing (table : Table) (index : Nat)
  /-- A list was asked for an element past its end. -/
  | noElement (index : Nat)
  /-- The entries followed contain themselves, so the unfolding has no end. -/
  | endless
  /-- A span was asked for whose end lies before its start. -/
  | reversedSpan (start stop : Nat)
  deriving DecidableEq

/-- An answer, or the fault that kept it from being given. -/
abbrev Result := Except Fault

/-- The entry of a table at an index. -/
def entry {α : Type} (table : Table) (entries : Array α) (index : Nat) : Result α :=
  match entries[index]? with
  | some a => .ok a
  | none => .error (.missing table index)

/-- The table with the entry at an index changed. -/
def modifyEntry {α : Type} (table : Table) (entries : Array α) (index : Nat) (change : α → α) :
    Result (Array α) :=
  if index < entries.size then .ok (entries.modify index change)
  else .error (.missing table index)

end SafeDialect
