/-
A record that is found bad is complained about.

Whoever asks about a record and gets a bad answer can ask again with a voice and will hear why.
`Complains P sys act good` says so of one step: if it ends, it has restored the guard and the
library flag, and it has said something unless its answer is good. What makes that true of members
is that the flag stands as it did when the record was entered, however much was asked in between; so
a remark on a member gets out of a record that was not entered from within library code.
-/
import SafeDialect.Proofs.Classifier.Judge
import SafeDialect.Proofs.Classifier.Script

namespace SafeDialect

/-- A step that restores the guard and the library flag, and says something unless its answer is
good. -/
def Complains {α : Type} (P : List (Aspect × RecordId)) (sys : Bool) (act : Inspect α)
    (good : α → Prop) : Prop :=
  ∀ voice, Runs (fun _ => True) act ⟨P, sys, voice⟩ fun a s =>
    ∃ lines, s = ⟨P, sys, voice.sayAll lines⟩ ∧ (good a ∨ lines ≠ [])

namespace Complains

open Inspect

variable {α β : Type} {P : List (Aspect × RecordId)} {sys : Bool} {act : Inspect α}
  {good good' : α → Prop}

/-- What is good needs no complaint. -/
theorem pure {a : α} (h : good a) : Complains P sys (Pure.pure a) good :=
  fun _ => .pure ⟨[], rfl, .inl h⟩

/-- A complaint that was made for less is there for more. -/
theorem mono (h : Complains P sys act good) (weaker : ∀ a, good a → good' a) :
    Complains P sys act good' := by
  intro voice
  refine .mono (h voice) fun a s known => ?_
  obtain ⟨lines, same, told⟩ := known
  exact ⟨lines, same, told.imp_left (weaker a)⟩

/-- What follows a step has to account for itself only if that step has not said anything. -/
theorem bind {f : α → Inspect β} {last : β → Prop} (first : Complains P sys act good)
    (next : ∀ a, Complains P sys (f a) fun b => good a → last b) :
    Complains P sys (act >>= f) last := by
  intro voice
  refine .bind (first voice) fun a s known => ?_
  obtain ⟨lines, rfl, told⟩ := known
  refine .mono (next a (voice.sayAll lines)) fun b s' known => ?_
  obtain ⟨more, rfl, toldNext⟩ := known
  refine ⟨lines ++ more, by rw [Voice.sayAll_append], ?_⟩
  rcases told with isGood | said
  · rcases toldNext with isLast | saidMore
    · exact .inl (isLast isGood)
    · exact .inr (List.append_ne_nil_of_right_ne_nil _ saidMore)
  · exact .inr (List.append_ne_nil_of_left_ne_nil said _)

/-- A step that nothing is known of, before another one. -/
theorem ask {f : α → Inspect β} {last : β → Prop} (first : Complains P sys act fun _ => True)
    (next : ∀ a, Complains P sys (f a) last) : Complains P sys (act >>= f) last :=
  bind first fun a => mono (next a) fun _ known _ => known

/-- Looking something up says nothing. -/
theorem look {x : Result α} {f : α → Inspect β} {first : α → Prop} {last : β → Prop}
    (ends : Ends (fun _ => True) x first)
    (next : ∀ a, x = .ok a → first a → Complains P sys (f a) last) :
    Complains P sys (liftM x >>= f) last :=
  fun voice => .lift_bind ends fun a answer known => next a answer known voice

/-- Whether a session is inside library code is known of the session that is read. -/
theorem get_bind {f : Session → Inspect β} {last : β → Prop}
    (next : ∀ s : Session, s.inSystem = sys → Complains P sys (f s) last) :
    Complains P sys (get >>= f) last :=
  fun voice => .get_bind (next ⟨P, sys, voice⟩ rfl voice)

/-- A step that restores the session and follows a script. -/
theorem of_yields (yields : Yields (fun _ => True) P sys act good) (scripted : Scripted act) :
    Complains P sys act good := by
  intro voice
  obtain ⟨script, same⟩ := scripted P sys
  have ends := yields ⟨P, sys, voice⟩ ⟨rfl, rfl⟩
  unfold Runs at ends ⊢
  rw [same voice] at ends ⊢
  cases script with
  | error fault => trivial
  | ok k =>
    obtain ⟨⟨rfl, rfl⟩, known⟩ := ends
    exact ⟨k.lines, rfl, .inl known⟩

-- ============================================================ remarks

/-- A remark is a complaint, so nothing has to be good after it. -/
theorem remark {location : Location} {message : String} :
    Complains P sys (remark location message) fun _ => False :=
  fun _ => .modify ⟨[(location, message)], rfl, .inr (List.cons_ne_nil _ _)⟩

/-- After a remark any answer is accounted for. -/
theorem complaint {location : Location} {message : String} {a : α} :
    Complains P sys (do Inspect.remark location message; return a) good :=
  bind remark fun _ => pure False.elim

/-- A member of a record that was not entered from within library code. -/
theorem remarkOnMember {entered : Bool} {location : Location} {message : String}
    (audible : (!sys || entered) = true) :
    Complains P sys (remarkOnMember entered location message) fun _ => False := by
  refine get_bind fun s here => ?_
  rw [here, if_pos audible]
  exact remark

/-- What is asked quietly is not heard, and so nothing is known of it. -/
theorem quietly (h : Complains P sys act fun _ => True) :
    Complains P sys (quietly act) fun _ => True := by
  intro voice
  refine .get_bind (.set_bind (.bind (h .silent) fun a s known => ?_))
  obtain ⟨lines, rfl, -⟩ := known
  exact .modify_bind (.pure ⟨[], rfl, .inl trivial⟩)

-- ============================================================ guard and library flag

/-- A record that is not in progress is entered, and what is said inside is heard outside. -/
theorem guarded {aspect : Aspect} {id : RecordId} {provisional : α} (fresh : (aspect, id) ∉ P)
    (h : Complains ((aspect, id) :: P) sys act good) :
    Complains P sys (guarded aspect id provisional act) good := by
  intro voice
  refine .get_bind ?_
  rw [if_neg fun inProgress => fresh (List.contains_iff_mem.mp inProgress)]
  refine .set_bind (.bind (h voice) fun a s known => ?_)
  obtain ⟨lines, rfl, told⟩ := known
  refine .modify_bind (.pure ⟨lines, ?_, told⟩)
  rw [List.erase_cons_head]

/-- Inside library code the session says that it is, and complains there as it does elsewhere. -/
theorem inside {isSystem : Bool} {act : Bool → Inspect α}
    (h : Complains P (sys || isSystem) (act (isSystem && !sys)) good) :
    Complains P sys (inside isSystem act) good := by
  intro voice
  refine .get_bind (.set_bind (.bind (h voice) fun a s known => ?_))
  obtain ⟨lines, rfl, told⟩ := known
  refine .modify_bind (.pure ⟨lines, ?_, told⟩)
  cases sys <;> cases isSystem <;> rfl

-- ============================================================ questions one after the other

/-- If either of two checks fails, it has complained. -/
theorem both {first next : Inspect Bool} (ofFirst : Complains P sys first (· = true))
    (ofNext : Complains P sys next (· = true)) :
    Complains P sys (do if ← first then next else return false) (· = true) := by
  refine bind ofFirst fun b => ?_
  cases b with
  | false => exact pure (absurd · Bool.false_ne_true)
  | true => exact mono ofNext fun _ known _ => known

section Lists

variable {l : List α} {passes : α → Inspect Bool}

/-- If a check of a list fails, one of its elements has complained. -/
theorem allM (each : ∀ a ∈ l, Complains P sys (passes a) (· = true)) :
    Complains P sys (l.allM passes) (· = true) := by
  induction l with
  | nil => exact pure rfl
  | cons head tail ih =>
    unfold List.allM
    refine bind (each head List.mem_cons_self) fun b => ?_
    cases b with
    | false => exact pure (absurd · Bool.false_ne_true)
    | true =>
      exact mono (ih fun a mem => each a (List.mem_cons_of_mem _ mem)) fun _ known _ => known

/-- If a member is bad, it is named, provided that its record is entered or stands in user code. -/
theorem allMembers {entered : Bool} {complaint : α → Location × String}
    (audible : (!sys || entered) = true)
    (each : ∀ a ∈ l, Complains P sys (passes a) fun _ => True) :
    Complains P sys (allMembers entered passes complaint l) (· = true) := by
  induction l with
  | nil => exact pure rfl
  | cons head tail ih =>
    unfold Inspect.allMembers
    refine ask (each head List.mem_cons_self) fun b => ?_
    cases b with
    | false => exact bind (remarkOnMember audible) fun _ => pure False.elim
    | true => exact ih fun a mem => each a (List.mem_cons_of_mem _ mem)

end Lists

end Complains

-- ============================================================ records

namespace Inspector

variable {i : Inspector} {P : List (Aspect × RecordId)} {sys : Bool} {id defined : RecordId}
  {r : RecordDecl}

/-- A question about a part restores what the remarks on the whole depend on. -/
theorem judge_complains (c : i.setting.unit.Consistent) (ready : i.setting.unit.Ready P)
    (a : Aspect) {t : QualifiedType} (inside : i.setting.unit.Holds .types t.id.index) :
    Complains P sys (i.judge a t) fun _ => True := by
  have yields : Yields (fun _ => True) P sys (i.judge a t) (i.Tells P sys t a) :=
    answers_judgeWithin c (.none trivial) i.depth a inside ready (absurd trivial)
  exact .mono (.of_yields yields (judgeWithin_scripted i i.depth a t)) fun _ _ => trivial

/-- A union is rejected with a complaint. -/
theorem unionRecord_complains (known : i.setting.definedRecord id = .ok (some defined)) :
    Complains P sys (i.unionRecord id) (· = true) := by
  unfold unionRecord
  rw [known, Runs.lift_ok_bind]
  refine .look (.always _) fun r _ _ => .allM fun f _ => .look (.always _) fun shape _ _ => ?_
  split
  · exact .complaint
  · exact .pure rfl

variable {ask : Ask} (c : i.setting.unit.Consistent)
  (asks : ∀ (a : Aspect) {t : QualifiedType}, i.setting.unit.Holds .types t.id.index →
    Complains P sys (ask a t) fun _ => True)
include c asks

-- ============================================================ naked structs

/-- The reasons why not may say nothing, but then the remark on the field does. -/
theorem nakedField_complains {f : Field} (inside : i.setting.unit.Holds .types f.type.id.index) :
    Complains P sys (i.nakedField ask f) (· = true) := by
  refine .look (c.canonical_ends inside) fun t _ ⟨insideT, _⟩ => ?_
  have reasons (a : Aspect) (location : Location) (message : String) :
      Complains P sys (do
        let _ ← ask a t
        Inspect.remark location message
        return false) (· = true) :=
    .ask (asks a insideT) fun _ => .complaint
  refine .ask (.quietly (asks .heapSafe insideT)) fun safe => ?_
  split
  · exact .pure rfl
  refine .ask (.quietly (asks .nullablePtr insideT)) fun nullable => ?_
  split
  · split
    · exact .pure rfl
    · exact reasons _ _ _
  refine .ask (.quietly (asks .nakedStruct insideT)) fun naked => ?_
  split
  · split
    · exact .pure rfl
    · exact reasons _ _ _
  · exact reasons _ _ _

/-- So is a record that is no naked struct. -/
theorem nakedRecord_complains (known : i.setting.definedRecord id = .ok (some defined)) :
    Complains P sys (i.nakedRecord ask id) (· = true) := by
  unfold nakedRecord
  rw [known, Runs.lift_ok_bind]
  refine .look (.always _) fun r look _ => ?_
  have fits := c.fits_of_record look
  split
  · exact .complaint
  · refine .both (.allM fun f mem => nakedField_complains c asks (fits.fields f mem))
      (.allM fun m _ => .look (.always _) fun f _ _ => ?_)
    split
    · exact .pure rfl
    · exact .complaint

-- ============================================================ members

variable {entered : Bool} (audible : (!sys || entered) = true)
include audible

private theorem deepConstMembers_complains (look : i.setting.unit.record defined = .ok r) :
    Complains P sys (i.deepConstMembers ask entered r) (·.sound = true) := by
  have fits := c.fits_of_record look
  unfold deepConstMembers
  split
  · exact .complaint
  refine .bind (.allMembers audible fun f mem =>
    .ask (asks .deepConst (fits.fields f mem)) fun _ => .pure trivial) fun fields => ?_
  cases fields with
  | false => exact .pure nofun
  | true =>
    have methods : Complains P sys (r.methods.allM i.deepConstMethod) (· = true) := by
      refine .allM fun m _ => .look (.always _) fun f _ _ => ?_
      split
      · exact .complaint
      · exact .pure rfl
    refine .bind methods fun methods => ?_
    cases methods with
    | false => exact .pure nofun
    | true =>
      refine .bind (.allMembers audible fun b mem =>
        .ask (asks .deepConst (fits.bases b mem)) fun _ => .pure trivial) fun bases => ?_
      exact .pure fun good _ _ => good

private theorem safeMembers_complains (known : i.setting.definedRecord id = .ok (some defined)) :
    Complains P sys (i.safeMembers ask entered id) (· = true) := by
  refine .look (.always _) fun r look _ => ?_
  have fits := c.fits_of_record look
  split
  · exact unionRecord_complains known
  · refine .both (.allMembers audible fun f mem => ?_) (.allMembers audible fun b mem => ?_)
    · exact .ask (asks .heapSafe (fits.fields f mem)) fun _ => .pure trivial
    · exact .ask (asks .heapSafe (fits.bases b mem)) fun _ => .pure trivial

omit asks audible

-- ============================================================ in a fresh session

variable (known : i.setting.definedRecord id = .ok (some defined))
include known

/-- The tag alone counts in library code, so there is nothing to complain about. -/
theorem deepConstRecord_complains (look : i.setting.unit.record defined = .ok r)
    (tagged : r.has .deepConst = true) :
    Complains [] false (i.deepConstRecord i.judge id) (·.sound = true) := by
  unfold deepConstRecord
  rw [known, Runs.lift_ok_bind]
  refine .guarded List.not_mem_nil ?_
  have ready : i.setting.unit.Ready [(.deepConst, defined)] :=
    .cons .nil List.not_mem_nil (by decide) (TranslationUnit.holds_of_entry look)
  unfold deepConstDefined
  rw [look, Runs.lift_ok_bind]
  refine .look (.always _) fun isSystem _ _ => .inside (.get_bind fun s here => ?_)
  rw [here]
  cases isSystem with
  | true =>
    rw [if_pos (Bool.or_true false), if_pos tagged]
    exact .pure rfl
  | false =>
    rw [if_neg nofun, if_pos tagged]
    exact deepConstMembers_complains c (judge_complains c ready) rfl look

/-- A record that is not safe is rejected with a complaint. -/
theorem safeRecord_complains : Complains [] false (i.safeRecord i.judge id) (· = true) := by
  unfold safeRecord
  rw [known, Runs.lift_ok_bind]
  refine .guarded List.not_mem_nil (.look (.always _) fun name _ _ => ?_)
  split
  · exact .pure rfl
  refine .look (.always _) fun r look _ => .look (.always _) fun isSystem _ _ => ?_
  split
  · exact .bind (.remarkOnMember rfl) fun _ => .pure False.elim
  · have ready : i.setting.unit.Ready [(.heapSafe, defined)] :=
      .cons .nil List.not_mem_nil (by decide) (TranslationUnit.holds_of_entry look)
    have audible : (!(false || isSystem) || (isSystem && !false)) = true := by
      cases isSystem <;> rfl
    have self := definedRecord_self known
    exact .inside (safeMembers_complains c (judge_complains c ready) audible self)

/-- A union without an initialized member is not deterministic, and not complained about. -/
theorem deterministicRecord_complains (look : i.setting.unit.record defined = .ok r)
    (noUnion : r.isUnion = false) :
    Complains [] false (i.deterministicRecord i.judge id) (· = true) := by
  have ready : i.setting.unit.Ready [(.deterministic, defined)] :=
    .cons .nil List.not_mem_nil (by decide) (TranslationUnit.holds_of_entry look)
  have fits := c.fits_of_record look
  unfold deterministicRecord
  rw [known, Runs.lift_ok_bind]
  refine .guarded List.not_mem_nil (.look (.always _) fun name _ _ => ?_)
  split
  · exact .pure rfl
  rw [look, Runs.lift_ok_bind]
  refine .look (.always _) fun isSystem _ _ => .inside ?_
  have audible : (!(false || isSystem) || (isSystem && !false)) = true := by
    cases isSystem <;> rfl
  rw [if_neg (Bool.eq_false_iff.mp noUnion)]
  refine .both (.allMembers audible fun f mem => ?_) (.allMembers audible fun b mem => ?_)
  · split
    · exact .pure trivial
    · exact .ask (judge_complains c ready .deterministic (fits.fields f mem)) fun _ => .pure trivial
  · exact .ask (judge_complains c ready .deterministic (fits.bases b mem)) fun _ => .pure trivial

end Inspector

end SafeDialect
