/-
A type is unsafe if and only if a chain of questions leads from it to a rejection.

The walk follows only chains that do not come to a record in progress. That no other chain is needed
is an argument about shortest chains: where a chain comes to a record for the second time, it may
just as well go on from the first time. This needs that what a record rests on does not depend on
the way to it, which holds unless library templates are deep const by their parameters: outside of
library code a definition decides, whatever record it is asked through.
-/
import Mathlib.Logic.Relation
import SafeDialect.Proofs.Classifier.Judge
import SafeDialect.Proofs.Classifier.Stricter

namespace SafeDialect

namespace Inspector

open Relation

variable {i : Inspector} {P : List (Aspect × RecordId)} {q q' : Question}

-- ============================================================ chains and failing chains

/-- A failing chain leads to a rejection. -/
theorem Fails.exists_chain (h : i.Fails P q) :
    ∃ last, ReflTransGen i.Leads q last ∧ i.Rejects last := by
  induction h with
  | rejects rejected _ => exact ⟨_, .refl, rejected⟩
  | step leads _ _ ih =>
    obtain ⟨last, chain, rejected⟩ := ih
    exact ⟨last, .head leads chain, rejected⟩

/-- Putting a record in progress keeps a failing chain, or the chain comes to that record and fails
from there without coming to it again. -/
theorem Fails.avoid_or_meet {plain : Question → Prop}
    (closed : ∀ q q', plain q → i.Leads q q' → plain q') {k : Aspect × RecordId}
    (h : i.Fails P q) (isPlain : plain q) :
    i.Fails (k :: P) q ∨ ∃ met, plain met ∧ i.key? met = some k
      ∧ (i.Rejects met ∨ ∃ next, i.Leads met next ∧ i.Fails (k :: P) next) := by
  induction h with
  | @rejects P q rejected free =>
    by_cases same : i.key? q = some k
    · exact .inr ⟨q, isPlain, same, .inl rejected⟩
    · refine .inl (.rejects rejected fun k' key mem => ?_)
      rcases List.mem_cons.mp mem with rfl | mem
      · exact same key
      · exact free k' key mem
  | @step P q next leads free rest ih =>
    by_cases same : i.key? q = some k
    -- the rest of the chain avoids what its first question has put in progress
    · rw [same] at rest
      exact .inr ⟨q, isPlain, same, .inr ⟨next, leads, rest⟩⟩
    · rcases ih (closed q next isPlain leads) with avoids | ⟨met, isPlain', key, fails⟩
      · refine .inl (.step leads (fun k' key mem => ?_) (avoids.antitone ?_))
        · rcases List.mem_cons.mp mem with rfl | mem
          · exact same key
          · exact free k' key mem
        · intro k' mem
          rcases List.mem_append.mp mem with mem | mem
          · exact List.mem_cons_of_mem _ (List.mem_append_left _ mem)
          · rcases List.mem_cons.mp mem with rfl | mem
            · exact List.mem_cons_self
            · exact List.mem_cons_of_mem _ (List.mem_append_right _ mem)
      · refine .inr ⟨met, isPlain', key, fails.imp_right ?_⟩
        rintro ⟨after, leads', fails⟩
        refine ⟨after, leads', fails.antitone ?_⟩
        exact List.cons_subset_cons _ (List.subset_append_right _ _)

/-- Where questions about one definition fail alike, every chain to a rejection has a failing one in
its place. -/
theorem fails_of_chain_of_alike {plain : Question → Prop}
    (closed : ∀ q q', plain q → i.Leads q q' → plain q')
    (alike : ∀ q q' k, plain q → plain q' → i.key? q = some k → i.key? q' = some k →
      ∀ P, i.FailsBy P (i.ruling q') → i.FailsBy P (i.ruling q))
    {last : Question} (chain : ReflTransGen i.Leads q last) (isPlain : plain q)
    (rejected : i.Rejects last) : i.Fails [] q := by
  induction chain using ReflTransGen.head_induction_on with
  | refl => exact .rejects rejected fun _ _ => List.not_mem_nil
  | @head q next leads _ ih =>
    have fails := ih (closed q next isPlain leads)
    cases key : i.key? q with
    | none =>
      refine .step leads (fun _ _ => List.not_mem_nil) ?_
      rw [key]
      exact fails
    | some k =>
      rcases fails.avoid_or_meet closed (closed q next isPlain leads) (k := k) with
        avoids | ⟨met, isPlain', key', fails⟩
      · refine .step leads (fun _ _ => List.not_mem_nil) ?_
        rw [key]
        exact avoids
      -- the chain comes back to the definition of `q`: leave out the way there
      · have failsBy : i.FailsBy [k] (i.ruling met) := by
          rcases fails with rejected | ⟨after, ⟨on, rests, mem⟩, fails⟩
          · exact .inl rejected
          · exact .inr ⟨on, rests, after, mem, fails⟩
        rcases alike q met k isPlain isPlain' key key' [k] failsBy with
          rejected | ⟨on, rests, after, mem, fails⟩
        · exact .rejects rejected fun _ _ => List.not_mem_nil
        · refine .step ⟨on, rests, mem⟩ (fun _ _ => List.not_mem_nil) ?_
          rw [key]
          exact fails

/-- Where questions about one definition are decided alike, every chain to a rejection has a failing
one in its place. -/
theorem fails_of_chain {plain : Question → Prop}
    (closed : ∀ q q', plain q → i.Leads q q' → plain q')
    (alike : ∀ q q' k, plain q → plain q' → i.key? q = some k → i.key? q' = some k →
      i.ruling q = i.ruling q')
    {last : Question} (chain : ReflTransGen i.Leads q last) (isPlain : plain q)
    (rejected : i.Rejects last) : i.Fails [] q := by
  refine fails_of_chain_of_alike closed (fun q q' k plain plain' key key' P fails => ?_) chain
    isPlain rejected
  rw [alike q q' k plain plain' key key']
  exact fails

end Inspector

-- ============================================================ outside library code

/-- Safety and deep constness, asked about outside library code. -/
def Question.Plain : Question → Prop
  | .type a _ sys | .record a _ sys => (a = .heapSafe ∨ a = .deepConst) ∧ sys = false

theorem Aspect.Relates.plain {a : Aspect} (asked : a = .heapSafe ∨ a = .deepConst) :
    a.Relates (fun _ q => q.Plain) false false :=
  ⟨fun _ => ⟨asked, rfl⟩, fun _ => ⟨asked, rfl⟩⟩

namespace Inspector

open Relation

variable {i : Inspector} {t : QualifiedType} {id defined : RecordId}

private theorem deepConstRecordRuling_plain
    (noParams : ∀ id r, i.setting.unit.record id = .ok r → r.has .deepConstWhenParams = false) :
    Stricter (fun _ q => q.Plain) (i.deepConstRecordRuling false id defined)
      (i.deepConstRecordRuling false id defined) := by
  refine .bind fun r look => .bind fun used _ => .bind fun isSystem _ => ?_
  split
  · split
    · exact .accepted
    · rw [noParams defined r look]
      exact .rejected
  · refine .bind fun suits _ => ?_
    split
    · exact .rests_map fun _ _ => ⟨.inr rfl, rfl⟩
    · exact .rejected

/-- Outside library code questions lead only to questions outside library code. -/
theorem plain_of_leads (mode : i.userCodeMode = false)
    (noParams : ∀ id r, i.setting.unit.record id = .ok r → r.has .deepConstWhenParams = false)
    (q q' : Question) (plain : q.Plain) (leads : i.Leads q q') : q'.Plain := by
  suffices Stricter (fun _ q => q.Plain) (i.ruling q) (i.ruling q) from of_leads this leads
  have safe := Aspect.Relates.plain (a := .heapSafe) (.inl rfl)
  have const := Aspect.Relates.plain (a := .deepConst) (.inr rfl)
  cases q with
  | type a t sys =>
    obtain ⟨rfl | rfl, rfl⟩ := plain
    · exact .bind fun _ _ => stricter_safeRuling safe const
    · exact .bind fun _ _ => stricter_deepConstRuling const
  | record a id sys =>
    obtain ⟨rfl | rfl, rfl⟩ := plain
    · refine .bind fun defined _ => ?_
      cases defined with
      | none => exact .rejected
      | some defined =>
        refine stricter_safeRecordRuling fun isSystem entered => ?_
        cases isSystem with
        | false => exact safe
        | true =>
          rw [mode] at entered
          cases entered rfl
    · refine .bind fun defined _ => ?_
      cases defined with
      | none => exact .rejected
      | some defined => exact deepConstRecordRuling_plain noParams

theorem definedRecord_of_key? {a : Aspect} {sys : Bool} {k : Aspect × RecordId}
    (key : i.key? (.record a id sys) = some k) :
    ∃ defined, i.setting.definedRecord id = .ok (some defined) ∧ k = (a, defined) := by
  unfold key? at key
  dsimp only at key
  split at key
  · next defined known =>
    cases key
    exact ⟨defined, known, rfl⟩
  · cases key

/-- Outside library code a definition decides, whatever record it is asked through. -/
theorem ruling_eq_of_key
    (noParams : ∀ id r, i.setting.unit.record id = .ok r → r.has .deepConstWhenParams = false)
    (q q' : Question) (k : Aspect × RecordId) (plain : q.Plain) (plain' : q'.Plain)
    (key : i.key? q = some k) (key' : i.key? q' = some k) : i.ruling q = i.ruling q' := by
  cases q with
  | type => cases key
  | record a id sys =>
    cases q' with
    | type => cases key'
    | record a' id' sys' =>
      obtain ⟨defined, known, rfl⟩ := definedRecord_of_key? key
      obtain ⟨_, known', same⟩ := definedRecord_of_key? key'
      cases same
      obtain ⟨used, look, -⟩ := Setting.defines_of_definedRecord known
      obtain ⟨used', look', -⟩ := Setting.defines_of_definedRecord known'
      -- the two records differ at most in their arguments, which only parameters would read
      obtain ⟨rfl | rfl, rfl⟩ := plain <;> obtain ⟨-, rfl⟩ := plain'
      · simp only [ruling, recordRuling, known, known', ok_bind]
      · simp only [ruling, recordRuling, deepConstRecordRuling, known, known', look, look', ok_bind]
        cases lookDefined : i.setting.unit.record defined with
        | error fault => rfl
        | ok r =>
          simp only [ok_bind, noParams defined r lookDefined, Bool.false_and, Bool.false_eq_true,
            if_false]

-- ============================================================ safety

/-- The table rejects nothing that a type leads to if and only if the type is safe: in a unit
without library templates that are deep const by their parameters, and without types that contain
themselves, a fresh classification answers, and it answers badly if and only if a chain of questions
leads from the type to a rejection. -/
theorem unsafe_iff_chain_to_rejection {u : TranslationUnit} (consistent : u.inconsistency? = none)
    (noParams : ∀ r ∈ u.records, r.has .deepConstWhenParams = false) (founded : u.TypesFounded)
    (config : Config) :
    ∃ s, Setting.of u config = .ok s ∧
      ∀ (t : QualifiedType) (voice : Voice), u.Holds .types t.id.index →
        ∃ verdict session,
          ((Inspector.mk s false).judge .heapSafe t).run (.start voice) = .ok (verdict, session)
          ∧ (verdict.sound = false ↔
            ∃ last, ReflTransGen (Inspector.mk s false).Leads (.type .heapSafe t false) last
              ∧ (Inspector.mk s false).Rejects last) := by
  have c := TranslationUnit.inconsistency?_eq_none_iff.mp consistent
  obtain ⟨s, setting, rfl, -⟩ := (Setting.of_ends c config).answer
  refine ⟨s, setting, fun t voice inside => ?_⟩
  obtain ⟨typeRank, ranked⟩ := c.exists_ranked founded
  let b : Bound (fun _ => False) s.unit := .ofRank ranked
  have yields := judge_yields (i := ⟨s, false⟩) c b .heapSafe inside fun _ other => nomatch other
  obtain ⟨verdict, session, run, -, told⟩ := (yields (.start voice) ⟨rfl, rfl⟩).answer
  refine ⟨verdict, session, run, Iff.trans told ⟨Fails.exists_chain, ?_⟩⟩
  rintro ⟨last, chain, rejected⟩
  have noParams' (id r) (look : s.unit.record id = .ok r) : r.has .deepConstWhenParams = false :=
    noParams r (Array.mem_of_getElem? (eq_of_entry look))
  exact fails_of_chain (plain_of_leads rfl noParams') (ruling_eq_of_key noParams') chain
    ⟨.inl rfl, rfl⟩ rejected

end Inspector

/-- A list whose nodes own the next node. A node holds another record besides, which refers back to
the node and has a raw pointer. -/
def TranslationUnit.nodeList : TranslationUnit where
  files := #[⟨"list.cpp", false⟩]
  types := ⟨#[.builtin .int, .record ⟨0⟩, .record ⟨1⟩, .pointer ⟨⟨0⟩, false⟩, .record ⟨2⟩]⟩
  scopes := #[
    { name := none, kind := .translationUnit, parent := none, attributes := .empty },
    { name := some "safememory", kind := .nameSpace, parent := some ⟨0⟩, attributes := .empty }]
  records :=
    let place : Location := ⟨some ⟨0⟩, ⟨0, 0⟩⟩
    let field (name : String) (slot : Nat) : Field := ⟨name, ⟨⟨slot⟩, false⟩, place, false⟩
    #[{ RecordDecl.declared "Node" ⟨0⟩ place with
        definition := some ⟨[field "next" 2, field "extra" 4], [], []⟩ },
      { RecordDecl.declared "owning_ptr" ⟨1⟩ .unknown with
        templateArgs := [.type ⟨⟨1⟩, false⟩] },
      { RecordDecl.declared "Extra" ⟨0⟩ place with
        definition := some ⟨[field "back" 1, field "raw" 3], [], []⟩ }]
  functions := #[]
  vars := #[]
  statements := #[]

open TranslationUnit Relation in
/-- The node of a list is unsafe if and only if a chain leads from it to a rejection. -/
theorem node_unsafe_iff_chain_to_rejection :
    nodeList.inconsistency? = none
    ∧ (∀ r ∈ nodeList.records, r.has .deepConstWhenParams = false) ∧ nodeList.TypesFounded
    ∧ ∃ s, Setting.of nodeList .default = .ok s ∧ ∃ verdict session,
      ((Inspector.mk s false).judge .heapSafe ⟨⟨1⟩, false⟩).run (.start .silent)
        = .ok (verdict, session)
      ∧ (verdict.sound = false ↔
        ∃ last, ReflTransGen (Inspector.mk s false).Leads (.type .heapSafe ⟨⟨1⟩, false⟩ false) last
          ∧ (Inspector.mk s false).Rejects last) := by
  have consistent : nodeList.inconsistency? = none := by decide
  have noParams : ∀ r ∈ nodeList.records, r.has .deepConstWhenParams = false := by decide
  have founded := (inconsistency?_eq_none_iff.mp consistent).typesFounded (by decide)
  obtain ⟨s, setting, all⟩ :=
    Inspector.unsafe_iff_chain_to_rejection consistent noParams founded .default
  exact ⟨consistent, noParams, founded, s, setting, all ⟨⟨1⟩, false⟩ .silent (by decide)⟩

end SafeDialect
