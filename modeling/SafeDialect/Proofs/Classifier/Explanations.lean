/-
A classification explains its failures, and nothing else.

One half is that a good verdict comes without a remark, which is what `Discreet` says. The other is
that a bad verdict on a record with a definition comes with one, which is what `Complains` says. A
question from outside starts where both apply: nothing is in progress, and the library flag is down.
-/
import SafeDialect.Proofs.Classifier.Complaints
import SafeDialect.Proofs.Classifier.Discretion
import SafeDialect.Proofs.Classifier.Reuse

namespace SafeDialect

/-- What a voice has to say gets out, unless it is silent. -/
theorem Voice.exists_said_sayAll {voice : Voice} (heard : voice.isSilent = false)
    {lines : List (Location × String)} (filled : lines ≠ []) :
    ∃ said, said ≠ [] ∧ (voice.sayAll lines).said = voice.said ++ said := by
  obtain ⟨line, rest, rfl⟩ := List.exists_cons_of_ne_nil filled
  obtain ⟨level, before⟩ := voice
  cases level with
  | none => cases heard
  | some level =>
    obtain ⟨said, goesOn⟩ := (Voice.continues_sayAll
      ⟨some .note, before ++ [⟨line.1, line.2, level⟩]⟩ rest).said
    refine ⟨⟨line.1, line.2, level⟩ :: said, List.cons_ne_nil _ _, ?_⟩
    rw [List.append_cons]
    exact goesOn.symm

namespace Inspector

variable {i : Inspector} {id defined : RecordId}

private theorem answer_discreet (q : Query) : Discreet (i.answer q) fun v => v.isGood = true := by
  have asks := judgeWithin_discreet i i.depth
  have sound {v : Verdict} (good : v.isGood = true) : v.sound = true :=
    (Bool.and_eq_true_iff.mp good).2
  have flag {b : Bool} (good : (Verdict.flag b).isGood = true) : b = true := sound good
  cases q with
  | type a t => exact .mono (asks a t) fun _ => sound
  | vector t => exact .mono (vector_discreet asks) fun _ good _ => sound good
  | hashmap t => exact .mono (hashmap_discreet asks) fun _ good _ => sound good
  | safeRecord id => exact .map (safeRecord_discreet asks) fun _ => flag
  | deterministicRecord id => exact .map (deterministicRecord_discreet asks) fun _ => flag
  | deepConstRecord id => exact .mono (deepConstRecord_discreet asks) fun _ => sound
  | nakedRecord id => exact .map nakedRecord_discreet fun _ => flag
  | unionRecord id => exact .map unionRecord_discreet fun _ => flag

/-- A verdict that calls for a reason: on a record with a definition, its own or that of its
template, which is not safe, not fit as a naked struct or as a union, tagged as deep const and not
so, or not deterministic although it is no union. -/
def Query.CallsForReason (s : Setting) : Query → Verdict → Prop
  | .safeRecord id, v | .nakedRecord id, v | .unionRecord id, v =>
    v.sound = false ∧ ∃ defined, s.definedRecord id = .ok (some defined)
  | .deepConstRecord id, v =>
    v = .malformed ∧ ∃ defined, s.definedRecord id = .ok (some defined)
  | .deterministicRecord id, v =>
    v.sound = false ∧ ∃ defined r, s.definedRecord id = .ok (some defined)
      ∧ s.unit.record defined = .ok r ∧ r.isUnion = false
  | .type _ _, _ | .vector _, _ | .hashmap _, _ => False

/-- Only a record that is tagged so is a malformed deep const record. -/
theorem deepConstRecord_refuses {r : RecordDecl} (ask : Ask)
    (known : i.setting.definedRecord id = .ok (some defined))
    (look : i.setting.unit.record defined = .ok r) (untagged : r.has .deepConst = false) :
    Refuses (i.deepConstRecord ask id) (· = .malformed) := by
  unfold deepConstRecord deepConstDefined
  rw [known, Runs.lift_ok_bind]
  refine .guarded nofun ?_
  rw [look, Runs.lift_ok_bind]
  refine .after fun isSystem => .inside fun entered => .after fun s => ?_
  rw [untagged]
  split
  · rw [if_neg Bool.false_ne_true]
    split
    · exact .after fun b => .pure (by cases b <;> nofun)
    · exact .pure nofun
  · rw [if_neg Bool.false_ne_true]
    exact .pure nofun

private theorem answer_complains (c : i.setting.unit.Consistent) {q : Query} {voice : Voice}
    {verdict : Verdict} {after : Session} (run : i.answer q (.start voice) = .ok (verdict, after))
    (calls : q.CallsForReason i.setting verdict) :
    ∃ lines, lines ≠ [] ∧ after = .start (voice.sayAll lines) := by
  have flag {act : Inspect Bool} (h : Complains [] false act (· = true)) :
      Complains [] false (do return .flag (← act)) fun v : Verdict => v.sound = true :=
    .bind h fun _ => .pure fun good => good
  have heard {good : Verdict → Prop} (h : Complains [] false (i.answer q) good)
      (bad : ¬ good verdict) : ∃ lines, lines ≠ [] ∧ after = .start (voice.sayAll lines) := by
    have told := h voice
    unfold Runs at told
    rw [show i.answer q ⟨[], false, voice⟩ = _ from run] at told
    obtain ⟨lines, same, said⟩ := told
    exact ⟨lines, said.resolve_left bad, same⟩
  cases q with
  | type a t => exact calls.elim
  | vector t => exact calls.elim
  | hashmap t => exact calls.elim
  | safeRecord id =>
    obtain ⟨unsound, defined, known⟩ := calls
    exact heard (flag (safeRecord_complains c known)) (Bool.eq_false_iff.mp unsound)
  | nakedRecord id =>
    obtain ⟨unsound, defined, known⟩ := calls
    refine heard (flag (nakedRecord_complains c ?_ known)) (Bool.eq_false_iff.mp unsound)
    exact judge_complains c .nil
  | unionRecord id =>
    obtain ⟨unsound, defined, known⟩ := calls
    exact heard (flag (unionRecord_complains known)) (Bool.eq_false_iff.mp unsound)
  | deterministicRecord id =>
    obtain ⟨unsound, defined, r, known, look, isUnion⟩ := calls
    refine heard (flag ?_) (Bool.eq_false_iff.mp unsound)
    exact deterministicRecord_complains c known look isUnion
  | deepConstRecord id =>
    obtain ⟨rfl, defined, known⟩ := calls
    obtain ⟨r, look, -⟩ := bind_eq_ok.mp (definedRecord_self known)
    cases tagged : r.has .deepConst with
    | true => exact heard (deepConstRecord_complains c known look tagged) nofun
    -- without the tag there is no verdict that calls for a reason
    | false =>
      have refused := deepConstRecord_refuses i.judge known look tagged (.start voice)
      unfold Runs at refused
      rw [show i.deepConstRecord i.judge id (.start voice) = _ from run] at refused
      exact absurd rfl refused

/-- A fresh inspector that is heard explains its failures and nothing else. Whatever it is asked,
it gives a verdict; a good one comes without a remark, and one that calls for a reason comes with
at least one. -/
theorem explains_exactly_failures {u : TranslationUnit} (consistent : u.inconsistency? = none)
    (types : u.TypesFounded) (naked : u.NakedFounded) (config : Config) :
    ∃ s, Setting.of u config = .ok s ∧
      ∀ (userCodeMode : Bool) (voice : Voice) (q : Query), voice.isSilent = false → q.Fits u →
        ∃ verdict after,
          ((Inspector.mk s userCodeMode).answer q).run (.start voice) = .ok (verdict, .start after)
          ∧ (verdict.isGood = true → after = voice)
          ∧ (q.CallsForReason s verdict → ∃ said, said ≠ [] ∧ after.said = voice.said ++ said) := by
  have c := TranslationUnit.inconsistency?_eq_none_iff.mp consistent
  obtain ⟨s, setting, rfl, -⟩ := (Setting.of_ends c config).answer
  obtain ⟨typeRank, ranked⟩ := c.exists_ranked types
  obtain ⟨nakedRank, nakedRanked⟩ := TranslationUnit.exists_nakedRanked naked
  let bound : Bound (fun _ => False) s.unit := ⟨typeRank, nakedRank, fun _ => ranked⟩
  refine ⟨s, setting, fun userCodeMode voice q heard fits => ?_⟩
  have restores := answer_restores (i := ⟨s, userCodeMode⟩) (b := bound) c nakedRanked fits
  obtain ⟨verdict, lines, run⟩ := restores.transcript (answer_scripted q)
  refine ⟨verdict, voice.sayAll lines, run voice, fun good => ?_, fun calls => ?_⟩
  · have silent := answer_discreet (i := ⟨s, userCodeMode⟩) q (.start voice)
    unfold Runs at silent
    rw [show answer ⟨s, userCodeMode⟩ q (.start voice) = _ from run voice] at silent
    exact silent good
  · obtain ⟨lines', filled, same⟩ := answer_complains (i := ⟨s, userCodeMode⟩) c (run voice) calls
    rw [show voice.sayAll lines = voice.sayAll lines' from congrArg Session.voice same]
    exact Voice.exists_said_sayAll heard filled

end Inspector

open TranslationUnit in
/-- The node of a list is not safe, and that is explained; a number is, and nothing is said. -/
theorem nodeList_explains_exactly_failures :
    nodeList.inconsistency? = none ∧ nodeList.TypesFounded ∧ nodeList.NakedFounded
    ∧ ∃ s, Setting.of nodeList .default = .ok s
      ∧ (∃ after, ((Inspector.mk s false).answer (.safeRecord ⟨0⟩)).run
          (.start (.speaking .error)) = .ok (.flag false, .start after) ∧ after.said ≠ [])
      ∧ ((Inspector.mk s false).answer (.type .heapSafe ⟨⟨0⟩, true⟩)).run
          (.start (.speaking .error)) = .ok (.flag true, .start (.speaking .error)) := by
  have consistent : nodeList.inconsistency? = none := by decide
  have types := (inconsistency?_eq_none_iff.mp consistent).typesFounded (by decide)
  have naked : nodeList.NakedFounded := nakedFounded_of_untagged (by decide)
  obtain ⟨s, setting, all⟩ := Inspector.explains_exactly_failures consistent types naked .default
  cases setting.symm.trans (show Setting.of nodeList .default = .ok ⟨_, .default, []⟩ from rfl)
  refine ⟨consistent, types, naked, _, setting, ?_, ?_⟩
  · obtain ⟨verdict, after, run, -, explained⟩ :=
      all false (.speaking .error) (.safeRecord ⟨0⟩) rfl (by decide)
    obtain rfl : .flag false = verdict := Except.ok.inj (congrArg (Except.map Prod.fst) run)
    obtain ⟨said, filled, same⟩ := explained ⟨rfl, ⟨0⟩, rfl⟩
    exact ⟨after, run, same ▸ filled⟩
  · obtain ⟨verdict, after, run, silent, -⟩ :=
      all false (.speaking .error) (.type .heapSafe ⟨⟨0⟩, true⟩) rfl (by decide)
    obtain rfl : .flag true = verdict := Except.ok.inj (congrArg (Except.map Prod.fst) run)
    rw [run, silent rfl]

end SafeDialect
