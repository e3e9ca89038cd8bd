/-
Steps that run side by side.

`Tracks R act act'` says that the second step keeps up with the first: where the first ends, the
second ends with the same answer, and it leaves a state that is related to the one that the first
leaves, if they started in related states. `R` is a relation of states; for classifications it is
`Session.Alike`, which lets nothing differ but the messages of what has been said. The rules below
are those for the building blocks of a step.
-/
import Mathlib.Data.List.Forall2
import SafeDialect.Classifier.Session
import SafeDialect.Proofs.Outcome

namespace SafeDialect

variable {σ α β γ : Type} {R : σ → σ → Prop}

/-- Where the first step ends, the second ends with the same answer, and states that are related
stay so. -/
def Tracks (R : σ → σ → Prop) (act act' : StateT σ Result α) : Prop :=
  ∀ s s', R s s' → ∀ a t, act s = .ok (a, t) → ∃ t', act' s' = .ok (a, t') ∧ R t t'

namespace Tracks

variable {act act' : StateT σ Result α}

/-- Neither says anything. -/
theorem pure {a : α} : Tracks R (Pure.pure a) (Pure.pure a) := by
  intro s s' related _ _ run
  cases run
  exact ⟨s', rfl, related⟩

/-- Nothing has to keep up with a step that fails. -/
theorem error {fault : Fault} : Tracks R (throw fault) act' := by
  intro s s' _ _ _ run
  cases run

/-- Steps one after the other keep up if both pairs do. -/
theorem bind {f f' : α → StateT σ Result β} (first : Tracks R act act')
    (next : ∀ a, Tracks R (f a) (f' a)) : Tracks R (act >>= f) (act' >>= f') := by
  intro s s' related b t run
  obtain ⟨⟨a, mid⟩, ofFirst, ofNext⟩ := bind_eq_ok.mp run
  obtain ⟨mid', run', related'⟩ := first s s' related a mid ofFirst
  obtain ⟨t', last', kept⟩ := next a mid mid' related' b t ofNext
  exact ⟨t', bind_eq_ok.mpr ⟨(a, mid'), run', last'⟩, kept⟩

/-- Two look-ups, the second with a result where the first has one. -/
theorem lookBoth {x : Result α} {x' : Result β} {f : α → StateT σ Result γ}
    {f' : β → StateT σ Result γ}
    (next : ∀ a, x = .ok a → ∃ b, x' = .ok b ∧ Tracks R (f a) (f' b)) :
    Tracks R (liftM x >>= f) (liftM x' >>= f') := by
  cases x with
  | error fault => exact error
  | ok a =>
    obtain ⟨b, found, follows⟩ := next a rfl
    rw [found]
    exact follows

/-- A look-up whose result is changed in a known way. -/
theorem lookAs {x : Result α} {x' : Result β} {g : α → β} {f : α → StateT σ Result γ}
    {f' : β → StateT σ Result γ} (same : x' = x.map g)
    (next : ∀ a, x = .ok a → Tracks R (f a) (f' (g a))) :
    Tracks R (liftM x >>= f) (liftM x' >>= f') := by
  refine lookBoth fun a found => ⟨g a, ?_, next a found⟩
  rw [same, found]
  rfl

/-- The same look-up in both steps. -/
theorem look {x x' : Result α} {f f' : α → StateT σ Result β} (same : x' = x)
    (next : ∀ a, x = .ok a → Tracks R (f a) (f' a)) :
    Tracks R (liftM x >>= f) (liftM x' >>= f') :=
  lookBoth fun a found => ⟨a, same.trans found, next a found⟩

/-- Two loops, over a list and over the same list with each element changed. -/
theorem forIn {l : List α} {g : α → β} {f : α → PUnit → StateT σ Result (ForInStep PUnit)}
    {f' : β → PUnit → StateT σ Result (ForInStep PUnit)} {init : PUnit}
    (each : ∀ a ∈ l, ∀ b, Tracks R (f a b) (f' (g a) b)) :
    Tracks R (ForIn.forIn l init f) (ForIn.forIn (l.map g) init f') := by
  induction l generalizing init with
  | nil => exact pure
  | cons head tail ih =>
    rw [List.map_cons, List.forIn_cons, List.forIn_cons]
    refine bind (each head List.mem_cons_self init) fun pass => ?_
    cases pass with
    | done b => exact pure
    | yield b => exact ih fun a mem => each a (List.mem_cons_of_mem _ mem)

/-- Two loops over the same list. -/
theorem forIn_same {l : List α} {f f' : α → PUnit → StateT σ Result (ForInStep PUnit)}
    {init : PUnit} (each : ∀ a ∈ l, ∀ b, Tracks R (f a b) (f' a b)) :
    Tracks R (ForIn.forIn l init f) (ForIn.forIn l init f') := by
  have mapped : Tracks R (ForIn.forIn l init f) (ForIn.forIn (l.map id) init f') := forIn each
  rwa [List.map_id] at mapped

/-- The same step for every element of a list, and for every element changed. -/
theorem each {l : List α} {g : α → β} {step : α → StateT σ Result PUnit}
    {step' : β → StateT σ Result PUnit} {last : γ}
    (one : ∀ a ∈ l, Tracks R (step a) (step' (g a))) :
    Tracks R
      (do
        for a in l do step a
        return last)
      (do
        for b in l.map g do step' b
        return last) :=
  bind (forIn fun a mem _ => bind (one a mem) fun _ => pure) fun _ => pure

theorem each_same {l : List α} {step step' : α → StateT σ Result PUnit} {last : γ}
    (one : ∀ a ∈ l, Tracks R (step a) (step' a)) :
    Tracks R
      (do
        for a in l do step a
        return last)
      (do
        for a in l do step' a
        return last) :=
  bind (forIn_same fun a mem _ => bind (one a mem) fun _ => pure) fun _ => pure

/-- A list and the same list with each element changed, asked until an answer is bad. -/
theorem allM {l : List α} {g : α → β} {passes : α → StateT σ Result Bool}
    {passes' : β → StateT σ Result Bool}
    (each : ∀ a ∈ l, Tracks R (passes a) (passes' (g a))) :
    Tracks R (l.allM passes) ((l.map g).allM passes') := by
  induction l with
  | nil => exact pure
  | cons head tail ih =>
    rw [List.map_cons]
    unfold List.allM
    refine bind (each head List.mem_cons_self) fun b => ?_
    cases b with
    | false => exact pure
    | true => exact ih fun a mem => each a (List.mem_cons_of_mem _ mem)

/-- The same list in both steps, asked until an answer is bad. -/
theorem allM_same {l : List α} {passes passes' : α → StateT σ Result Bool}
    (each : ∀ a ∈ l, Tracks R (passes a) (passes' a)) :
    Tracks R (l.allM passes) (l.allM passes') := by
  have mapped := allM (g := id) each
  rwa [List.map_id] at mapped

/-- Two questions, the second only if the answer to the first is good. -/
theorem both {first first' next next' : StateT σ Result Bool} (ofFirst : Tracks R first first')
    (ofNext : Tracks R next next') :
    Tracks R (do if ← first then next else return false)
      (do if ← first' then next' else return false) := by
  refine bind ofFirst fun b => ?_
  cases b with
  | false => exact pure
  | true => exact ofNext

end Tracks

-- ============================================================ sessions

variable {Q : String → String → Prop}

/-- Remarks that differ at most in their messages. -/
structure Remark.Alike (Q : String → String → Prop) (m m' : Remark) : Prop where
  location : m'.location = m.location
  severity : m'.severity = m.severity
  message : Q m.message m'.message

/-- Voices that have said the same, up to messages, and go on at the same level. -/
structure Voice.Alike (Q : String → String → Prop) (v v' : Voice) : Prop where
  level : v'.level = v.level
  said : List.Forall₂ (Remark.Alike Q) v.said v'.said

/-- Sessions that differ at most in the messages of what has been said. -/
structure Session.Alike (Q : String → String → Prop) (s s' : Session) : Prop where
  inProgress : s'.inProgress = s.inProgress
  inSystem : s'.inSystem = s.inSystem
  voice : s.voice.Alike Q s'.voice

/-- Voices that say related things stay alike. -/
theorem Voice.Alike.say {v v' : Voice} (alike : v.Alike Q v') {location : Location}
    {message message' : String} (related : Q message message') :
    (v.say location message).Alike Q (v'.say location message') := by
  obtain ⟨level, said⟩ := v
  obtain ⟨level', said'⟩ := v'
  obtain ⟨rfl, all⟩ := alike
  cases level' with
  | none => exact ⟨rfl, all⟩
  | some level =>
    refine ⟨rfl, List.rel_append all ?_⟩
    exact .cons ⟨rfl, rfl, related⟩ .nil

namespace Tracks

open Inspect

variable {act act' : Inspect α}

theorem remark {location : Location} {message message' : String} (related : Q message message') :
    Tracks (Session.Alike Q) (remark location message) (remark location message') := by
  intro s s' alike _ _ run
  cases run
  exact ⟨_, rfl, alike.inProgress, alike.inSystem, alike.voice.say related⟩

/-- Reading the library flag. -/
theorem get_bind {f f' : Session → Inspect β}
    (next : ∀ s s', s'.inSystem = s.inSystem → Tracks (Session.Alike Q) (f s) (f' s')) :
    Tracks (Session.Alike Q) (get >>= f) (get >>= f') :=
  fun s s' alike => next s s' alike.inSystem s s' alike

theorem remarkOnMember {entered : Bool} {location : Location} {message message' : String}
    (related : Q message message') :
    Tracks (Session.Alike Q) (remarkOnMember entered location message)
      (remarkOnMember entered location message') := by
  refine get_bind fun s s' same => ?_
  rw [same]
  split
  · exact remark related
  · exact pure

/-- A remark and an answer. -/
theorem complaint {location : Location} {message message' : String} {a : α}
    (related : Q message message') :
    Tracks (Session.Alike Q) (do Inspect.remark location message; return a)
      (do Inspect.remark location message'; return a) :=
  bind (remark related) fun _ => pure

/-- A question, and a complaint if the answer is bad. -/
theorem orComplaint {question question' : Inspect α} {good : α → Bool}
    {complaint complaint' : Inspect PUnit}
    (ofQuestion : Tracks (Session.Alike Q) question question')
    (ofComplaint : Tracks (Session.Alike Q) complaint complaint') :
    Tracks (Session.Alike Q)
      (do
        if good (← question) then return true
        else
          complaint
          return false)
      (do
        if good (← question') then return true
        else
          complaint'
          return false) := by
  refine bind ofQuestion fun a => ?_
  split
  · exact pure
  · exact bind ofComplaint fun _ => pure

/-- What is said quietly is not heard on either side. -/
theorem quietly (h : Tracks (Session.Alike Q) act act') :
    Tracks (Session.Alike Q) (quietly act) (quietly act') := by
  intro s s' alike a t run
  obtain ⟨⟨_, mid⟩, runs, last⟩ : ∃ end_, act { s with voice := .silent } = .ok end_
      ∧ Except.ok (end_.1, { end_.2 with voice := s.voice }) = .ok (a, t) := bind_eq_ok.mp run
  cases last
  have alikeQuiet : Session.Alike Q { s with voice := .silent } { s' with voice := .silent } :=
    ⟨alike.inProgress, alike.inSystem, rfl, .nil⟩
  obtain ⟨mid', runs', alike'⟩ := h _ _ alikeQuiet _ _ runs
  refine ⟨{ mid' with voice := s'.voice }, ?_, alike'.inProgress, alike'.inSystem, alike.voice⟩
  exact bind_eq_ok.mpr ⟨_, runs', rfl⟩

/-- The same records are in progress on both sides. -/
theorem guarded {aspect : Aspect} {id : RecordId} {provisional : α}
    (h : Tracks (Session.Alike Q) act act') :
    Tracks (Session.Alike Q) (guarded aspect id provisional act)
      (guarded aspect id provisional act') := by
  intro s s' alike
  show ∀ a t, (if s.inProgress.contains (aspect, id) then _ else _ : Inspect α) s = _ →
    ∃ t', (if s'.inProgress.contains (aspect, id) then _ else _ : Inspect α) s' = _ ∧ _
  rw [alike.inProgress]
  split
  · exact pure s s' alike
  · intro a t run
    obtain ⟨⟨_, mid⟩, runs, last⟩ : ∃ end_,
        act { s with inProgress := (aspect, id) :: s.inProgress } = .ok end_
        ∧ Except.ok (end_.1, { end_.2 with inProgress := end_.2.inProgress.erase (aspect, id) })
          = .ok (a, t) := bind_eq_ok.mp run
    cases last
    have alikeInside : Session.Alike Q { s with inProgress := (aspect, id) :: s.inProgress }
        { s' with inProgress := (aspect, id) :: s.inProgress } :=
      ⟨rfl, alike.inSystem, alike.voice⟩
    obtain ⟨mid', runs', alike'⟩ := h _ _ alikeInside _ _ runs
    refine ⟨{ mid' with inProgress := mid'.inProgress.erase (aspect, id) }, ?_, ?_,
      alike'.inSystem, alike'.voice⟩
    · exact bind_eq_ok.mpr ⟨_, runs', rfl⟩
    · show mid'.inProgress.erase _ = mid.inProgress.erase _
      rw [alike'.inProgress]

/-- The library flag is the same on both sides. -/
theorem inside {isSystem : Bool} {act act' : Bool → Inspect α}
    (h : ∀ entered, Tracks (Session.Alike Q) (act entered) (act' entered)) :
    Tracks (Session.Alike Q) (inside isSystem act) (inside isSystem act') := by
  intro s s' alike a t run
  obtain ⟨⟨_, mid⟩, runs, last⟩ : ∃ end_,
      act (isSystem && !s.inSystem) { s with inSystem := s.inSystem || isSystem } = .ok end_
      ∧ Except.ok (end_.1, { end_.2 with
          inSystem := end_.2.inSystem && !(isSystem && !s.inSystem) }) = .ok (a, t) :=
    bind_eq_ok.mp run
  cases last
  have alikeInside : Session.Alike Q { s with inSystem := s.inSystem || isSystem }
      { s' with inSystem := s.inSystem || isSystem } :=
    ⟨alike.inProgress, rfl, alike.voice⟩
  obtain ⟨mid', runs', alike'⟩ := h _ _ _ alikeInside _ _ runs
  refine ⟨{ mid' with inSystem := mid'.inSystem && !(isSystem && !s.inSystem) }, ?_,
    alike'.inProgress, ?_, alike'.voice⟩
  · show (act' (isSystem && !s'.inSystem) { s' with inSystem := s'.inSystem || isSystem } >>= _) = _
    rw [alike.inSystem]
    refine bind_eq_ok.mpr ⟨_, runs', ?_⟩
    rfl
  · show (mid'.inSystem && _) = (mid.inSystem && _)
    rw [alike'.inSystem]

/-- Members, and the same members each changed in a way that remarks do not show. -/
theorem allMembers {entered : Bool} {l : List α} {g : α → β} {passes : α → Inspect Bool}
    {passes' : β → Inspect Bool} {complaint : α → Location × String}
    {complaint' : β → Location × String} (refl : ∀ message, Q message message)
    (same : ∀ a ∈ l, complaint' (g a) = complaint a)
    (each : ∀ a ∈ l, Tracks (Session.Alike Q) (passes a) (passes' (g a))) :
    Tracks (Session.Alike Q) (allMembers entered passes complaint l)
      (allMembers entered passes' complaint' (l.map g)) := by
  induction l with
  | nil => exact pure
  | cons head tail ih =>
    rw [List.map_cons]
    unfold Inspect.allMembers
    refine bind (each head List.mem_cons_self) fun b => ?_
    cases b with
    | false =>
      rw [same head List.mem_cons_self]
      exact bind (remarkOnMember (refl _)) fun _ => pure
    | true =>
      exact ih (fun a mem => same a (List.mem_cons_of_mem _ mem))
        fun a mem => each a (List.mem_cons_of_mem _ mem)

end Tracks

end SafeDialect
