/-
Rulings side by side.

Whether a question comes up inside library code reaches a table for types only through the questions
that it rests on. So the rulings on one type, asked at two places, rest on the same questions asked
at these places, and whatever relates those relates the rulings. `Stricter R y x` is that relation;
the walks through the tables below are the only ones that look at their branches for it.
-/
import SafeDialect.Proofs.Classifier.Table

namespace SafeDialect

/-- A ruling `y` lets through no more than `x`, up to a relation of questions: it rejects what `x`
rejects, and for each question that `x` rests on it rejects or rests on a related one. -/
def Stricter (R : Question → Question → Prop) (y x : Result Ruling) : Prop :=
  (x = .ok .rejected → y = .ok .rejected) ∧ ∀ on, x = .ok (.rests on) → ∀ q ∈ on,
    y = .ok .rejected ∨ ∃ on₀, y = .ok (.rests on₀) ∧ ∃ q₀ ∈ on₀, R q₀ q

namespace Stricter

variable {α : Type} {R : Question → Question → Prop} {x y : Result Ruling} {on on₀ : List Question}

/-- To reject is stricter than anything. -/
theorem rejected : Stricter R (pure .rejected) x := ⟨fun _ => rfl, fun _ _ _ _ => .inl rfl⟩

/-- Everything is stricter than to accept. -/
theorem accepted : Stricter R y (pure .accepted) := by
  refine ⟨nofun, ?_⟩
  rintro _ ⟨⟩ q mem
  cases mem

/-- Rulings that rest on questions, each of which has a related one. -/
theorem rests (h : ∀ q ∈ on, ∃ q₀ ∈ on₀, R q₀ q) :
    Stricter R (pure (.rests on₀)) (pure (.rests on)) := by
  refine ⟨nofun, ?_⟩
  rintro _ ⟨⟩ q mem
  exact .inr ⟨on₀, rfl, h q mem⟩

/-- Rulings that rest on the same things, asked at two places. -/
theorem rests_map {l : List α} {f g : α → Question} (h : ∀ a ∈ l, R (f a) (g a)) :
    Stricter R (pure (.rests (l.map f))) (pure (.rests (l.map g))) := by
  refine rests fun q mem => ?_
  obtain ⟨a, memA, rfl⟩ := List.mem_map.mp mem
  exact ⟨f a, List.mem_map_of_mem memA, h a memA⟩

/-- What both look up first is the same. -/
theorem bind {z : Result α} {f g : α → Result Ruling}
    (h : ∀ a, z = .ok a → Stricter R (f a) (g a)) : Stricter R (z >>= f) (z >>= g) := by
  cases z with
  | ok a => exact h a rfl
  | error fault => exact ⟨nofun, nofun⟩

end Stricter

/-- The questions about an aspect are related to themselves, asked at two places. -/
structure Aspect.Relates (R : Question → Question → Prop) (sys₀ sys : Bool) (a : Aspect) :
    Prop where
  type : ∀ t, R (.type a t sys₀) (.type a t sys)
  record : ∀ id, R (.record a id sys₀) (.record a id sys)

namespace Inspector

variable {i : Inspector} {R : Question → Question → Prop} {t : QualifiedType} {defined : RecordId}
  {sys₀ sys : Bool}

/-- What a question rests on has a property if it is related to itself by that property. -/
theorem of_leads {p : Question → Prop} {q q' : Question}
    (h : Stricter (fun _ q => p q) (i.ruling q) (i.ruling q)) (leads : i.Leads q q') : p q' := by
  obtain ⟨on, ruled, mem⟩ := leads
  rcases h.2 on ruled q' mem with rejected | ⟨_, _, _, _, holds⟩
  · rw [ruled] at rejected
    cases rejected
  · exact holds

section Follow

variable {P : List (Aspect × RecordId)} {q₀ q : Question} {x y : Result Ruling}

/-- Where related questions are in progress alike and are ruled on no more leniently, what fails is
related only to what fails. -/
theorem Fails.of_stricter (key : ∀ q₀ q, R q₀ q → i.key? q₀ = i.key? q)
    (stricter : ∀ q₀ q, R q₀ q → Stricter R (i.ruling q₀) (i.ruling q)) (h : i.Fails P q)
    (related : R q₀ q) : i.Fails P q₀ := by
  induction h generalizing q₀ with
  | rejects rejected free =>
    exact .rejects ((stricter _ _ related).1 rejected) (key _ _ related ▸ free)
  | step leads free _ ih =>
    -- follow the chain until it is rejected on this side, or to its end
    obtain ⟨on, rests, mem⟩ := leads
    rcases (stricter _ _ related).2 on rests _ mem with rejected | ⟨on₀, rests₀, q₀', mem₀, next⟩
    · exact .rejects rejected (key _ _ related ▸ free)
    · exact .step ⟨on₀, rests₀, mem₀⟩ (key _ _ related ▸ free) (key _ _ related ▸ ih next)

/-- What fails by a ruling fails by a stricter one, if failing goes from a question to the related
one. -/
theorem FailsBy.of_stricter (h : i.FailsBy P x) (stricter : Stricter R y x)
    (follow : ∀ q₀ q, R q₀ q → i.Fails P q → i.Fails P q₀) : i.FailsBy P y := by
  rcases h with rejected | ⟨on, rests, q, mem, fails⟩
  · exact .inl (stricter.1 rejected)
  · rcases stricter.2 on rests q mem with rejected | ⟨on₀, rests₀, q₀, mem₀, related⟩
    · exact .inl rejected
    · exact .inr ⟨on₀, rests₀, q₀, mem₀, follow q₀ q related fails⟩

end Follow

section Safety

variable (safe : Aspect.heapSafe.Relates R sys₀ sys) (const : Aspect.deepConst.Relates R sys₀ sys)
include safe const

private theorem stricter_compoundRuling {shape : TypeShape} {name : String} :
    Stricter R (i.compoundRuling sys₀ t shape name) (i.compoundRuling sys t shape name) := by
  unfold compoundRuling
  split
  · refine .bind fun arg _ => ?_
    split
    · exact .rests (by simp [safe.type])
    · exact .rejected
  split
  · refine .bind fun _ _ => .bind fun _ _ => .bind fun _ _ => .bind fun _ _ => ?_
    split
    · refine .bind fun _ _ => .bind fun _ _ => ?_
      split
      · exact .rests (by simp [safe.type, const.type])
      · exact .rejected
    · exact .rejected
  split
  · refine .bind fun pointee _ => ?_
    split
    · exact .rests (by simp [safe.type])
    · exact .rejected
  split
  · exact .rests (by simp [safe.record])
  · exact .accepted
  · exact .rejected

/-- The table for safe types looks at its place in no other way than by the questions that it rests
on. -/
theorem stricter_safeRuling : Stricter R (i.safeRuling sys₀ t) (i.safeRuling sys t) := by
  refine .bind fun shape _ => .bind fun name _ => .bind fun onStack _ => ?_
  split
  · exact .rejected
  split
  · exact .accepted
  refine .bind fun awaitable _ => ?_
  split
  · exact .rejected
  exact stricter_compoundRuling safe const

end Safety

/-- Neither does the one for deep const types. -/
theorem stricter_deepConstRuling (const : Aspect.deepConst.Relates R sys₀ sys) :
    Stricter R (i.deepConstRuling sys₀ t) (i.deepConstRuling sys t) := by
  refine .bind fun shape _ => .bind fun name _ => ?_
  split
  · exact .rejected
  split
  · exact .accepted
  split
  · refine .bind fun owned _ => ?_
    split
    · split
      · exact .rests (by simp [const.type])
      · exact .rejected
    · exact .rejected
  split
  · exact .rejected
  split
  · exact .rests (by simp [const.record])
  · exact .accepted
  · exact .rejected

/-- Nor the one for deterministic types. -/
theorem stricter_deterministicRuling (deterministic : Aspect.deterministic.Relates R sys₀ sys) :
    Stricter R (i.deterministicRuling sys₀ t) (i.deterministicRuling sys t) := by
  refine .bind fun shape _ => ?_
  split
  · exact .accepted
  split
  · exact .rejected
  refine .bind fun byKind _ => ?_
  split
  · exact .accepted
  split
  · exact .rests (by simp [deterministic.record])
  · exact .accepted
  · exact .rejected

/-- The members of a library record are looked into only in user code mode. -/
theorem stricter_safeRecordRuling
    (members : ∀ isSystem : Bool, (isSystem = true → i.userCodeMode = true) →
      Aspect.heapSafe.Relates R (sys₀ || isSystem) (sys || isSystem)) :
    Stricter R (i.safeRecordRuling sys₀ defined) (i.safeRecordRuling sys defined) := by
  refine .bind fun r _ => .bind fun name _ => .bind fun isSystem _ => ?_
  split
  · exact .accepted
  split
  · exact .rejected
  next entered =>
  have mode : isSystem = true → i.userCodeMode = true := by simpa using entered
  split
  · refine .bind fun holds _ => ?_
    cases holds
    · exact .rejected
    · exact .accepted
  · exact .rests_map fun t _ => (members isSystem mode).type t

/-- In the table for deterministic records the place of the members is that of the record or inside
library code. -/
theorem stricter_deterministicRecordRuling
    (members : ∀ isSystem : Bool,
      Aspect.deterministic.Relates R (sys₀ || isSystem) (sys || isSystem)) : Stricter R
    (i.deterministicRecordRuling sys₀ defined) (i.deterministicRecordRuling sys defined) := by
  refine .bind fun r _ => .bind fun name _ => .bind fun isSystem _ => ?_
  split
  · exact .accepted
  split
  · split
    · exact .accepted
    · exact .rejected
  · exact .rests_map fun t _ => (members isSystem).type t

end Inspector

end SafeDialect
