/-
What a step of a classification leaves behind.

A verdict may depend on the records in progress and on the library flag, and on nothing else in the
session. Every step restores both, so that a chain of steps can be followed with the two fixed.
`Yields π P sys act post` says so of one step, together with what is known of its answer. The rules
below are those for the building blocks of a classification; only the guard and the entry into
library code change what is fixed, for the step inside them.
-/
import SafeDialect.Classifier.Session
import SafeDialect.Proofs.Outcome

namespace SafeDialect

/-- A session with the given records in progress, in library code or not. -/
def Session.At (P : List (Aspect × RecordId)) (sys : Bool) (s : Session) : Prop :=
  s.inProgress = P ∧ s.inSystem = sys

/-- A step restores the guard and the library flag, and its answer has a property. -/
def Yields {α : Type} (π : Fault → Prop) (P : List (Aspect × RecordId)) (sys : Bool)
    (act : Inspect α) (post : α → Prop) : Prop :=
  ∀ s : Session, s.At P sys → Runs π act s fun a s' => s'.At P sys ∧ post a

namespace Yields

open Inspect

variable {α β : Type} {π : Fault → Prop} {P : List (Aspect × RecordId)} {sys : Bool}
  {act : Inspect α} {post post' : α → Prop}

/-- What is at hand leaves the session as it is. -/
theorem pure {a : α} (h : post a) : Yields π P sys (Pure.pure a) post :=
  fun _ here => .pure ⟨here, h⟩

/-- A fault leaves no session behind. -/
theorem error {fault : Fault} (permitted : π fault) :
    Yields π P sys (throw fault : Inspect α) post :=
  fun _ _ => permitted

/-- The session is restored in between, so the second step starts where the first one did. -/
theorem bind {f : α → Inspect β} {last : β → Prop} (first : Yields π P sys act post)
    (next : ∀ a, post a → Yields π P sys (f a) last) : Yields π P sys (act >>= f) last :=
  fun s here => .bind (first s here) fun a s' after => next a after.2 s' after.1

/-- What is known of the answer may be weakened. -/
theorem mono (h : Yields π P sys act post) (weaker : ∀ a, post a → post' a) :
    Yields π P sys act post' :=
  fun s here => .mono (h s here) fun a _ after => ⟨after.1, weaker a after.2⟩

/-- A look-up at the start of a step. -/
theorem look {x : Result α} {f : α → Inspect β} {first : α → Prop} {last : β → Prop}
    (ends : Ends π x first) (next : ∀ a, x = .ok a → first a → Yields π P sys (f a) last) :
    Yields π P sys (liftM x >>= f) last :=
  fun s here => .lift_bind ends fun a answer known => next a answer known s here

/-- Reading the library flag. -/
theorem get_bind {f : Session → Inspect β} {last : β → Prop}
    (next : ∀ s : Session, s.inSystem = sys → Yields π P sys (f s) last) :
    Yields π P sys (get >>= f) last :=
  fun s here => .get_bind (next s here.2 s here)

-- ============================================================ remarks

/-- A remark changes the voice, and that is no part of what is restored. -/
theorem remark {location : Location} {message : String} :
    Yields π P sys (remark location message) fun _ => True :=
  fun _ here => .modify ⟨here, trivial⟩

theorem remarkOnMember {entered : Bool} {location : Location} {message : String} :
    Yields π P sys (remarkOnMember entered location message) fun _ => True := by
  refine get_bind fun s _ => ?_
  split
  · exact remark
  · exact pure trivial

/-- What is done quietly restores the voice as well. -/
theorem quietly (h : Yields π P sys act post) : Yields π P sys (quietly act) post := by
  intro s here
  refine .get_bind (.set_bind (.bind (h _ here) fun a s' after => ?_))
  exact .modify_bind (.pure ⟨after.1, after.2⟩)

-- ============================================================ guard and library flag

/-- A guarded step runs with one more record in progress, or gives its provisional answer. -/
theorem guarded {aspect : Aspect} {id : RecordId} {provisional : α}
    (known : (aspect, id) ∈ P → post provisional)
    (fresh : (aspect, id) ∉ P → Yields π ((aspect, id) :: P) sys act post) :
    Yields π P sys (guarded aspect id provisional act) post := by
  intro s here
  refine .get_bind ?_
  split
  · next inProgress =>
    rw [here.1, List.contains_iff_mem] at inProgress
    exact .pure ⟨here, known inProgress⟩
  · next notInProgress =>
    rw [here.1, List.contains_iff_mem] at notInProgress
    refine .set_bind (.bind (fresh notInProgress _ ⟨by rw [here.1], here.2⟩) fun a s' after => ?_)
    refine .modify_bind (.pure ⟨⟨?_, after.1.2⟩, after.2⟩)
    -- the step inside has restored the guard, so the record is its head and goes first
    show s'.inProgress.erase (aspect, id) = P
    rw [after.1.1, List.erase_cons_head]

/-- The library flag is up while the members of a library record are looked at. -/
theorem inside {isSystem : Bool} {act : Bool → Inspect α}
    (h : ∀ entered, Yields π P (sys || isSystem) (act entered) post) :
    Yields π P sys (inside isSystem act) post := by
  intro s here
  refine .get_bind (.set_bind (.bind (h _ _ ⟨here.1, by rw [here.2]⟩) fun a s' after => ?_))
  refine .modify_bind (.pure ⟨⟨after.1.1, ?_⟩, after.2⟩)
  -- the flag is taken down only by the step that put it up
  show (s'.inSystem && !(isSystem && !s.inSystem)) = sys
  rw [after.1.2, here.2]
  cases sys <;> cases isSystem <;> rfl

-- ============================================================ questions

/-- What an answer that is good tells. -/
theorem not_of_true {p : Prop} (told : true = false ↔ p) : ¬ p := by
  intro h
  cases told.mpr h

/-- Two questions, the second only if the answer to the first is good. The answer is bad if either
is. -/
theorem both {first next : Inspect Bool} {p q : Prop}
    (ofFirst : Yields π P sys first fun b => b = false ↔ p)
    (ofNext : Yields π P sys next fun b => b = false ↔ q) :
    Yields π P sys (do if ← first then next else return false) fun b => b = false ↔ p ∨ q := by
  refine bind ofFirst fun b told => ?_
  cases b with
  | false => exact pure (iff_of_true rfl (.inl (told.mp rfl)))
  | true =>
    refine mono ofNext fun b toldNext => ?_
    rw [toldNext, or_iff_right (not_of_true told)]

-- ============================================================ lists

section Lists

variable {l : List α} {bad : α → Prop}

/-- Every element is asked in turn until one is bad. -/
theorem allM (bad : α → Prop) {passes : α → Inspect Bool}
    (each : ∀ a ∈ l, Yields π P sys (passes a) fun b => b = false ↔ bad a) :
    Yields π P sys (l.allM passes) fun b => b = false ↔ ∃ a ∈ l, bad a := by
  induction l with
  | nil => exact pure (by simp)
  | cons head tail ih =>
    unfold List.allM
    refine bind (each head List.mem_cons_self) fun b ofHead => ?_
    cases b with
    | false => exact pure (iff_of_true rfl ⟨head, List.mem_cons_self, ofHead.mp rfl⟩)
    | true =>
      refine mono (ih fun a mem => each a (List.mem_cons_of_mem _ mem)) fun b ofTail => ?_
      simpa [not_of_true ofHead] using ofTail

/-- Asking with remarks gives the answers that looking up gives. -/
theorem allM_eq {passes : α → Inspect Bool} {test : α → Result Bool}
    (each : ∀ a ∈ l, Yields π P sys (passes a) fun b => test a = .ok b) :
    Yields π P sys (l.allM passes) fun b => l.allM test = .ok b := by
  induction l with
  | nil => exact pure rfl
  | cons head tail ih =>
    unfold List.allM
    refine bind (each head List.mem_cons_self) fun b ofHead => ?_
    rw [ofHead]
    cases b with
    | false => exact pure rfl
    | true => exact ih fun a mem => each a (List.mem_cons_of_mem _ mem)

theorem allM_any {passes : α → Inspect Bool}
    (each : ∀ a ∈ l, Yields π P sys (passes a) fun _ => True) :
    Yields π P sys (l.allM passes) fun _ => True := by
  induction l with
  | nil => exact pure trivial
  | cons head tail ih =>
    unfold List.allM
    refine bind (each head List.mem_cons_self) fun b _ => ?_
    cases b with
    | false => exact pure trivial
    | true => exact ih fun a mem => each a (List.mem_cons_of_mem _ mem)

/-- Members are asked about until one is bad. -/
theorem allMembers {entered : Bool} {passes : α → Inspect Bool}
    {complaint : α → Location × String}
    (each : ∀ a ∈ l, Yields π P sys (passes a) fun b => b = false ↔ bad a) :
    Yields π P sys (allMembers entered passes complaint l) fun b => b = false ↔ ∃ a ∈ l, bad a := by
  induction l with
  | nil => exact pure (by simp)
  | cons head tail ih =>
    unfold Inspect.allMembers
    refine bind (each head List.mem_cons_self) fun b ofHead => ?_
    cases b with
    | false =>
      refine bind remarkOnMember fun _ _ => pure ?_
      exact iff_of_true rfl ⟨head, List.mem_cons_self, ofHead.mp rfl⟩
    | true =>
      refine mono (ih fun a mem => each a (List.mem_cons_of_mem _ mem)) fun b ofTail => ?_
      simpa [not_of_true ofHead] using ofTail

end Lists

/-- Fields come first, then bases. -/
theorem allFieldsAndBases {entered : Bool} {r : RecordDecl} {fieldPasses : Field → Inspect Bool}
    {basePasses : Base → Inspect Bool} {property : String} {badField : Field → Prop}
    {badBase : Base → Prop}
    (fields : ∀ f ∈ r.fields, Yields π P sys (fieldPasses f) fun b => b = false ↔ badField f)
    (bases : ∀ f ∈ r.bases, Yields π P sys (basePasses f) fun b => b = false ↔ badBase f) :
    Yields π P sys (allFieldsAndBases entered r fieldPasses basePasses property) fun b =>
      b = false ↔ (∃ f ∈ r.fields, badField f) ∨ ∃ f ∈ r.bases, badBase f :=
  both (allMembers fields) (allMembers bases)

end Yields

end SafeDialect
