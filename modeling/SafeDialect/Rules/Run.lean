/-
What the rules have in common: the state of a run, its steps, and the user code that rules look at.
-/
import SafeDialect.Ledger
import SafeDialect.Lifetime.Flow
import SafeDialect.Program.Body
import SafeDialect.Rules.Rule

namespace SafeDialect

/-- The state of a run: verdicts given so far, and findings so far. -/
structure Run where
  ledger : Ledger
  journal : Journal
  deriving DecidableEq

def Run.start : Run := ⟨.empty, .empty⟩

/-- A step of a run. -/
abbrev Check (α : Type) := StateT Run Result α

namespace Check

def reportAll (remarks : List Remark) : Check PUnit :=
  modify fun r => { r with journal := r.journal.reportAll remarks }

def error (location : Location) (message : String) : Check PUnit :=
  reportAll [⟨location, message, .error⟩]

def note (location : Location) (message : String) : Check PUnit :=
  reportAll [⟨location, message, .note⟩]

/-- The verdict on a type, by way of the ledger. -/
def verdict (s : Setting) (a : Aspect) (t : QualifiedType) : Check Verdict := do
  let r ← get
  let (v, ledger) ← r.ledger.verdict s a t
  set { r with ledger }
  return v

/-- Explains a failing verdict by notes, if that has not been done. -/
def explain (s : Setting) (a : Aspect) (t : QualifiedType) : Check PUnit := do
  let r ← get
  let (remarks, ledger) ← r.ledger.explain s a t
  set { r with ledger }
  reportAll remarks

/-- A question to a classification of its own that says nothing. -/
def quiet {α : Type} (act : Inspect α) : Check α := do
  return (← act.run (.start .silent)).1

/-- An error, explained by a classification of its own. -/
def errorExplainedBy {α : Type} (location : Location) (message : String) (act : Inspect α) :
    Check PUnit := do
  let voice := (Voice.speaking .error).say location message
  let (_, session) ← act.run (.start voice)
  reportAll session.voice.said

/-- A question about lifetimes, with its internal errors reported. -/
def speak {α : Type} (act : Speak α) : Check α := do
  let (a, voice) ← act.run (.speaking .note)
  reportAll voice.said
  return a

end Check

namespace Setting

/-- The inspector that rules use: library records are not looked into. -/
def inspector (s : Setting) : Inspector := ⟨s, false⟩

/-- The defined records of user code. -/
def userRecords (s : Setting) : Result (List RecordId) :=
  s.unit.recordIds.filterM fun id => do
    let r ← s.unit.record id
    if r.isDefined then s.isUserCode r.location r.scope else return false

/-- The functions of user code that have a body. -/
def userFunctions (s : Setting) : Result (List FunctionId) :=
  s.unit.functionIds.filterM fun id => do
    let f ← s.unit.function id
    if f.body.isSome then s.isUserCode f.location f.scope else return false

/-- The variables of functions of user code, and the others that stand in user files. -/
def userVariables (s : Setting) : Result (List VariableId) :=
  s.unit.variableIds.filterM fun id => do
    let v ← s.unit.variableDecl id
    match v.function with
    | some owner =>
      let f ← s.unit.function owner
      s.isUserCode f.location f.scope
    | none => return !s.unit.isSystemLocation v.location

end Setting

end SafeDialect
