/-
The ledger: verdicts that have been given, and whether they have been explained.

An entry belongs to a canonical type and an aspect; a `const` on top makes no difference. The first
question about it is answered by a quiet classification, later ones from the ledger. A failure is
explained by classifying once more with a voice that makes notes, and only once.
-/
import SafeDialect.Classifier.Judge

namespace SafeDialect

/-- What the ledger knows about a type under an aspect. -/
structure LedgerEntry where
  type : TypeId
  aspect : Aspect
  verdict : Verdict
  isExplained : Bool
  deriving DecidableEq

structure Ledger where
  entries : List LedgerEntry
  deriving DecidableEq

namespace Ledger

def empty : Ledger := ⟨[]⟩

instance : Inhabited Ledger := ⟨empty⟩

/-- The number of verdicts given. -/
def size (l : Ledger) : Nat := l.entries.length

def find? (l : Ledger) (id : TypeId) (a : Aspect) : Option LedgerEntry :=
  l.entries.find? fun e => e.type == id && e.aspect == a

/-- Notes that the verdict on a type has been explained. -/
def markExplained (l : Ledger) (id : TypeId) (a : Aspect) : Ledger :=
  ⟨l.entries.map fun e => if e.type = id ∧ e.aspect = a then { e with isExplained := true } else e⟩

/-- A classification on its own, with its verdict and what it said. -/
def classify (s : Setting) (voice : Voice) (a : Aspect) (t : QualifiedType) :
    Result (Verdict × List Remark) := do
  let (verdict, session) ← ((Inspector.mk s false).judge a t).run (.start voice)
  return (verdict, session.voice.said)

/-- The verdict on a canonical type, from the ledger if it is there. -/
def verdictOn (s : Setting) (l : Ledger) (a : Aspect) (c : QualifiedType) :
    Result (Verdict × Ledger) :=
  match l.find? c.id a with
  | some e => return (e.verdict, l)
  | none => do
    let (verdict, _) ← classify s .silent a c
    return (verdict, ⟨l.entries ++ [⟨c.id, a, verdict, false⟩]⟩)

/-- The verdict on a type. -/
def verdict (s : Setting) (l : Ledger) (a : Aspect) (t : QualifiedType) :
    Result (Verdict × Ledger) := do
  verdictOn s l a (← s.canonical t)

/-- The remarks that explain a failure, if it is one that has not been explained yet. -/
def explain (s : Setting) (l : Ledger) (a : Aspect) (t : QualifiedType) :
    Result (List Remark × Ledger) := do
  let c ← s.canonical t
  let (verdict, l) ← verdictOn s l a c
  let isExplained := ((l.find? c.id a).map (·.isExplained)).getD true
  if a.isFailure verdict && !isExplained then
    let (_, remarks) ← classify s (.speaking .note) a c
    return (remarks, l.markExplained c.id a)
  else return ([], l)

end Ledger

end SafeDialect
