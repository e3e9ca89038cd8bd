/-
The state of a classification, and the steps that change it.

Types refer to each other through records, so a question about a record may come up while it is
being answered. A record in progress is accepted provisionally: if something is wrong with it, the
question that is in progress finds that. While members of a library record are looked at, only that
record itself is remarked on, and not what lies below it.

Each step that changes the guard, the library flag or the voice restores it when it ends.
-/
import SafeDialect.Classifier.Verdict
import SafeDialect.Names.Spelling
import SafeDialect.Report.Finding
import SafeDialect.Setting.Kinds

namespace SafeDialect

/-- What a classification looks at: a setting, and whether library records are inspected member by
member like user records. -/
structure Inspector where
  setting : Setting
  userCodeMode : Bool

/-- The state of a classification. -/
structure Session where
  /-- The records that a question is in progress about. -/
  inProgress : List (Aspect × RecordId)
  /-- The members of a library record are being looked at. -/
  inSystem : Bool
  voice : Voice
  deriving DecidableEq

/-- A session in which nothing is in progress. -/
def Session.start (voice : Voice) : Session := ⟨[], false, voice⟩

/-- A step of a classification. -/
abbrev Inspect (α : Type) := StateT Session Result α

/-- How the parts of a type are asked about. -/
abbrev Ask := Aspect → QualifiedType → Inspect Verdict

namespace Inspect

def remark (location : Location) (message : String) : Inspect PUnit :=
  modify fun s => { s with voice := s.voice.say location message }

/-- Does something without letting remarks out. -/
def quietly {α : Type} (act : Inspect α) : Inspect α := do
  let before ← get
  set { before with voice := .silent }
  let a ← act
  modify fun s => { s with voice := before.voice }
  return a

/-- Answers a question about a record with the record in progress; if it is so already, the answer
is the provisional one. -/
def guarded {α : Type} (aspect : Aspect) (id : RecordId) (provisional : α) (act : Inspect α) :
    Inspect α := do
  let before ← get
  if before.inProgress.contains (aspect, id) then return provisional
  else
    set { before with inProgress := (aspect, id) :: before.inProgress }
    let a ← act
    modify fun s => { s with inProgress := s.inProgress.erase (aspect, id) }
    return a

/-- Looks at the members of a record. The step is told whether this record is where library code
was entered. -/
def inside {α : Type} (isSystem : Bool) (act : (entered : Bool) → Inspect α) : Inspect α := do
  let before ← get
  let entered := isSystem && !before.inSystem
  set { before with inSystem := before.inSystem || isSystem }
  let a ← act entered
  modify fun s => { s with inSystem := s.inSystem && !entered }
  return a

/-- A remark on a member, unless the member lies below the record where library code was
entered. -/
def remarkOnMember (entered : Bool) (location : Location) (message : String) : Inspect PUnit := do
  if !(← get).inSystem || entered then remark location message else return ⟨⟩

/-- Whether every member passes. The first that does not is remarked on. -/
def allMembers {α : Type} (entered : Bool) (passes : α → Inspect Bool)
    (complaint : α → Location × String) : List α → Inspect Bool
  | [] => return true
  | member :: rest => do
    if ← passes member then allMembers entered passes complaint rest
    else
      remarkOnMember entered (complaint member).1 (complaint member).2
      return false

/-- Whether every field and then every base passes, with a remark on the first that does not. -/
def allFieldsAndBases (entered : Bool) (r : RecordDecl) (fieldPasses : Field → Inspect Bool)
    (basePasses : Base → Inspect Bool) (property : String) : Inspect Bool := do
  if ← allMembers entered fieldPasses
      (fun f => (f.location, s!"member '{f.name}' is not {property}")) r.fields then
    allMembers entered basePasses
      (fun b => (b.location, s!"base class is not {property}")) r.bases
  else return false

end Inspect

end SafeDialect
