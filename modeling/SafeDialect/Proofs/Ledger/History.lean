/-
The ledger answers as a fresh classification would, after any history of calls.

`After` says what a history of calls leaves in the ledger. The step lemma is about one call, and
every history follows by induction.
-/
import Mathlib.Data.List.Dedup
import SafeDialect.Proofs.Classifier.Judge
import SafeDialect.Proofs.Ledger.Coherent

namespace SafeDialect

namespace Ledger

variable {s : Setting} {l : Ledger} {a : Aspect} {t c : QualifiedType} {v : Verdict}
  {remarks : List Remark}

-- ============================================================ histories

/-- A use of the ledger: a question, or a wish for reasons. -/
inductive Call where
  | query (a : Aspect) (t : QualifiedType)
  | report (a : Aspect) (t : QualifiedType)

namespace Call

/-- The aspect that is asked about. -/
def aspect : Call → Aspect
  | query a _ | report a _ => a

/-- The type that is asked about. -/
def type : Call → QualifiedType
  | query _ t | report _ t => t

/-- What a call is about: the slot of the canonical type, and the aspect. -/
def key (s : Setting) (call : Call) : Result (TypeId × Aspect) := do
  return ((← s.canonical call.type).id, call.aspect)

private theorem key_eq {call : Call} (canonical : s.canonical call.type = .ok c) :
    call.key s = .ok (c.id, call.aspect) := by
  unfold key
  rw [canonical]
  rfl

end Call

/-- The ledger after a call. -/
def perform (s : Setting) (l : Ledger) : Call → Result Ledger
  | .query a t => return (← l.verdict s a t).2
  | .report a t => return (← l.explain s a t).2

/-- Reasons were asked for, under a key. -/
def Reported (s : Setting) (past : List Call) (k : TypeId × Aspect) : Prop :=
  ∃ t, .report k.2 t ∈ past ∧ (Call.report k.2 t).key s = .ok k

/-- What a history of calls leaves in the ledger: a verdict for each key that was asked about,
explained if it is a failure and reasons were asked for. -/
structure After (s : Setting) (past : List Call) (l : Ledger) : Prop where
  coherent : l.Coherent s
  keys : ∀ k, k ∈ l.keys ↔ ∃ call ∈ past, call.key s = .ok k
  explained : ∀ t c a v remarks, s.canonical t = .ok c → Tells s a t v remarks →
    (l.isExplained c.id a = true ↔ a.isFailure v = true ∧ Reported s past (c.id, a))

/-- Nothing has been asked of the empty ledger. -/
private theorem after_nil : After s [] empty := by
  refine ⟨coherent_empty, fun k => iff_of_false nofun nofun, fun t c a v remarks _ _ => ?_⟩
  refine iff_of_false nofun ?_
  rintro ⟨-, _, mem, -⟩
  cases mem

section Steps

variable {past : List Call} (after : After s past l) (canonical : s.canonical t = .ok c)
  (tells : Tells s a t v remarks)

private theorem reported_query {k : TypeId × Aspect} :
    Reported s (past ++ [.query a t]) k ↔ Reported s past k := by
  unfold Reported
  simp

include canonical

private theorem reported_report {k : TypeId × Aspect} :
    Reported s (past ++ [.report a t]) k ↔ Reported s past k ∨ k = (c.id, a) := by
  have key : (Call.report a t).key s = .ok (c.id, a) := Call.key_eq canonical
  constructor
  · rintro ⟨t', mem, isKey⟩
    rcases List.mem_append.mp mem with old | here
    · exact .inl ⟨t', old, isKey⟩
    · rw [List.mem_singleton.mp here, key] at isKey
      exact .inr (Except.ok.inj isKey).symm
  · rintro (⟨t', old, isKey⟩ | rfl)
    · exact ⟨t', List.mem_append_left _ old, isKey⟩
    · exact ⟨t, List.mem_append_right _ (List.mem_singleton_self _), key⟩

include after

/-- The keys after a call are those of the calls before it, and its own. -/
private theorem After.keys_withVerdict (call : Call) (isAbout : call.type = t)
    (isAspect : call.aspect = a)
    (k : TypeId × Aspect) :
    k ∈ (l.withVerdict c.id a v).keys ↔ ∃ call' ∈ past ++ [call], call'.key s = .ok k := by
  have key : call.key s = .ok (c.id, a) := by
    rw [Call.key_eq (isAbout ▸ canonical), isAspect]
  rw [mem_keys_withVerdict, after.keys]
  simp [or_and_right, exists_or, key, eq_comm]

include tells

private theorem After.coherent_withVerdict : (l.withVerdict c.id a v).Coherent s := by
  have tellsC := tells.congr (Setting.alike_canonical canonical)
  exact after.coherent.withVerdict (Setting.canonical_idem canonical) tellsC.quiet

/-- A question leaves its verdict in the ledger. -/
theorem After.query : After s (past ++ [.query a t]) (l.withVerdict c.id a v) := by
  refine ⟨after.coherent_withVerdict canonical tells,
    after.keys_withVerdict canonical (.query a t) rfl rfl, ?_⟩
  intro t' c' a' v' remarks' canonical' tells'
  rw [isExplained_withVerdict, reported_query]
  exact after.explained t' c' a' v' remarks' canonical' tells'

/-- Asking for reasons leaves the verdict in the ledger, explained if it is a failure. -/
theorem After.report :
    After s (past ++ [.report a t])
      (if a.isFailure v && !l.isExplained c.id a then
        (l.withVerdict c.id a v).markExplained c.id a
      else l.withVerdict c.id a v) := by
  have coherent := after.coherent_withVerdict canonical tells
  have keys := after.keys_withVerdict (v := v) canonical (.report a t) rfl rfl
  have known : (c.id, a) ∈ (l.withVerdict c.id a v).keys := mem_keys_withVerdict.mpr (.inr rfl)
  -- a verdict under the key of this call is the verdict of this call
  have sameVerdict {t' c' : QualifiedType} {v' : Verdict} {remarks' : List Remark}
      (canonical' : s.canonical t' = .ok c') (tells' : Tells s a t' v' remarks')
      (same : c'.id = c.id) : v' = v :=
    ((tells'.congr ⟨c', c, canonical', canonical, same⟩).unique tells).1
  have before := after.explained t c a v remarks canonical tells
  split
  · next first =>
    obtain ⟨isFailure, -⟩ := Bool.and_eq_true_iff.mp first
    refine ⟨coherent.markExplained, ?_, ?_⟩
    · rw [keys_markExplained]
      exact keys
    · intro t' c' a' v' remarks' canonical' tells'
      rw [isExplained_markExplained known, isExplained_withVerdict, reported_report canonical,
        after.explained t' c' a' v' remarks' canonical' tells', Prod.mk.injEq]
      constructor
      · rintro (⟨failure, old⟩ | ⟨sameId, rfl⟩)
        · exact ⟨failure, .inl old⟩
        · rw [sameVerdict canonical' tells' sameId]
          exact ⟨isFailure, .inr ⟨sameId, rfl⟩⟩
      · rintro ⟨failure, old | here⟩
        · exact .inl ⟨failure, old⟩
        · exact .inr here
  · next notFirst =>
    refine ⟨coherent, keys, ?_⟩
    intro t' c' a' v' remarks' canonical' tells'
    rw [isExplained_withVerdict, reported_report canonical,
      after.explained t' c' a' v' remarks' canonical' tells', Prod.mk.injEq]
    constructor
    · rintro ⟨failure, old⟩
      exact ⟨failure, .inl old⟩
    · rintro ⟨failure, old | ⟨sameId, rfl⟩⟩
      · exact ⟨failure, old⟩
      -- a failure that is not explained now has been explained before
      · rw [sameVerdict canonical' tells' sameId] at failure ⊢
        have explained : l.isExplained c.id a' = true := by simpa [failure] using notFirst
        rw [sameId]
        exact before.mp explained

end Steps

-- ============================================================ every history

section Histories

variable (answers : ∀ a t, s.unit.Holds .types t.id.index →
  ∃ c v remarks, s.canonical t = .ok c ∧ Tells s a t v remarks)
include answers

/-- A call on a type of the unit succeeds, and extends the history. -/
theorem After.step {past : List Call} (after : After s past l) (call : Call)
    (inside : s.unit.Holds .types call.type.id.index) :
    ∃ l', l.perform s call = .ok l' ∧ After s (past ++ [call]) l' := by
  cases call with
  | query a t =>
    obtain ⟨c, v, remarks, canonical, tells⟩ := answers a t inside
    refine ⟨_, ?_, after.query canonical tells⟩
    show (l.verdict s a t >>= fun answer => .ok answer.2) = _
    rw [verdict_of_tells after.coherent canonical tells]
    rfl
  | report a t =>
    obtain ⟨c, v, remarks, canonical, tells⟩ := answers a t inside
    refine ⟨_, ?_, after.report canonical tells⟩
    show (l.explain s a t >>= fun answer => .ok answer.2) = _
    rw [explain_of_tells after.coherent canonical tells, ok_bind]
    split <;> rfl

/-- So do several calls, one after the other. -/
theorem After.run {past : List Call} (after : After s past l) (calls : List Call)
    (inside : ∀ call ∈ calls, s.unit.Holds .types call.type.id.index) :
    ∃ l', calls.foldlM (perform s) l = .ok l' ∧ After s (past ++ calls) l' := by
  induction calls generalizing past l with
  | nil => exact ⟨l, rfl, by rwa [List.append_nil]⟩
  | cons call rest ih =>
    obtain ⟨next, performed, after'⟩ := after.step answers call (inside call List.mem_cons_self)
    obtain ⟨last, runs, afterAll⟩ :=
      ih after' fun call' mem => inside call' (List.mem_cons_of_mem _ mem)
    refine ⟨last, ?_, ?_⟩
    · rw [List.foldlM_cons, performed]
      exact runs
    · rwa [List.append_assoc] at afterAll

end Histories

/-- The ledger holds one verdict for each key that was asked about. -/
theorem After.size_eq {past : List Call} (after : After s past l)
    {asked : List (TypeId × Aspect)} (keys : past.mapM (Call.key s) = .ok asked) :
    l.size = asked.dedup.length := by
  have mem (k) : k ∈ l.keys ↔ k ∈ asked.dedup := by
    rw [after.keys, List.mem_dedup, mem_of_mapM keys]
  have perm : l.keys.Perm asked.dedup :=
    (List.perm_ext_iff_of_nodup after.coherent.nodup (List.nodup_dedup _)).mpr mem
  unfold size
  rw [← perm.length_eq, Ledger.keys, List.length_map]

/-- Every question about a type of the unit has an answer. -/
theorem exists_answer (consistent : s.unit.Consistent) (types : s.unit.TypesFounded)
    (naked : s.unit.NakedFounded) (a : Aspect) (t : QualifiedType)
    (inside : s.unit.Holds .types t.id.index) :
    ∃ c v remarks, s.canonical t = .ok c ∧ Tells s a t v remarks := by
  obtain ⟨typeRank, ranked⟩ := consistent.exists_ranked types
  obtain ⟨nakedRank, nakedRanked⟩ := TranslationUnit.exists_nakedRanked naked
  let bound : Bound (fun _ => False) s.unit := ⟨typeRank, nakedRank, fun _ => ranked⟩
  have yields := Inspector.judge_yields (i := ⟨s, false⟩) consistent bound a inside
    fun _ _ => nakedRanked
  obtain ⟨c, canonical, -⟩ := (consistent.canonical_ends inside).answer
  obtain ⟨v, session, run, -⟩ := (yields (.start .silent) ⟨rfl, rfl⟩).answer
  have answer : classify s .silent a t = .ok (v, session.voice.said) := by
    unfold classify
    rw [StateT.run, run]
    rfl
  obtain ⟨remarks, tells⟩ := exists_tells answer
  exact ⟨c, v, remarks, canonical, tells⟩

/-- After any history of questions and wishes for reasons, the ledger answers what a fresh and quiet
classification of the very type answers. It gives reasons for failures only, once for each slot and
aspect, and these are the notes of a fresh classification. It holds a verdict for each slot and
aspect that was asked about, and no other. -/
theorem answers_afresh {u : TranslationUnit} (consistent : u.inconsistency? = none)
    (types : u.TypesFounded) (naked : u.NakedFounded) (config : Config) :
    ∃ s, Setting.of u config = .ok s ∧
      ∀ past : List Call, (∀ call ∈ past, u.Holds .types call.type.id.index) →
        ∃ l asked, past.foldlM (perform s) empty = .ok l
          ∧ past.mapM (Call.key s) = .ok asked ∧ l.size = asked.dedup.length
          ∧ ∀ a t, u.Holds .types t.id.index → ∃ c verdict remarks,
            s.canonical t = .ok c ∧ classify s .silent a t = .ok (verdict, [])
            ∧ classify s (.speaking .note) a t = .ok (verdict, remarks)
            ∧ (∀ r ∈ remarks, r.severity = .note)
            ∧ (∃ l', l.verdict s a t = .ok (verdict, l'))
            ∧ ∃ given l', l.explain s a t = .ok (given, l')
              ∧ (a.isFailure verdict = true ∧ ¬ Reported s past (c.id, a) → given = remarks)
              ∧ (¬ (a.isFailure verdict = true ∧ ¬ Reported s past (c.id, a)) → given = []) := by
  have con := TranslationUnit.inconsistency?_eq_none_iff.mp consistent
  obtain ⟨s, isSetting, rfl, -⟩ := (Setting.of_ends con config).answer
  have answers := exists_answer con types naked
  refine ⟨s, isSetting, fun past inside => ?_⟩
  obtain ⟨l, performed, after⟩ := after_nil.run answers past inside
  rw [List.nil_append] at after
  have keyed : Ends (fun _ => False) (past.mapM (Call.key s)) fun _ => True := by
    refine .mono (ends_mapM (fun _ => True) fun call mem => ?_) fun _ _ => trivial
    exact .bind (con.canonical_ends (inside call mem)) fun _ _ => .pure trivial
  obtain ⟨asked, keys, -⟩ := keyed.answer
  refine ⟨l, asked, performed, keys, after.size_eq keys, fun a t insideT => ?_⟩
  obtain ⟨c, v, remarks, canonical, tells⟩ := answers a t insideT
  have explained := after.explained t c a v remarks canonical tells
  refine ⟨c, v, remarks, canonical, tells.quiet, tells.noted, tells.notes,
    ⟨_, verdict_of_tells after.coherent canonical tells⟩, ?_⟩
  rw [explain_of_tells after.coherent canonical tells]
  -- the ledger has marked a failure exactly if its reasons were given before
  by_cases first : a.isFailure v = true ∧ ¬ Reported s past (c.id, a)
  · have unexplained : l.isExplained c.id a = false := by
      rw [← Bool.not_eq_true, explained]
      exact fun old => first.2 old.2
    have open_ : (a.isFailure v && !l.isExplained c.id a) = true := by
      rw [first.1, unexplained]
      rfl
    rw [open_]
    exact ⟨remarks, _, rfl, fun _ => rfl, fun h => absurd first h⟩
  · have done : (a.isFailure v && !l.isExplained c.id a) = false := by
      rw [Bool.eq_false_iff]
      intro open_
      obtain ⟨isFailure, unexplained⟩ := Bool.and_eq_true_iff.mp open_
      refine first ⟨isFailure, fun old => ?_⟩
      rw [explained.mpr ⟨isFailure, old⟩] at unexplained
      cases unexplained
    rw [done]
    exact ⟨[], _, rfl, fun h => absurd h first, fun _ => rfl⟩

end Ledger

/-- A struct that is not safe, under two names:

    struct Bad { int* p; };
    typedef Bad Alias;
-/
def TranslationUnit.aliased : TranslationUnit where
  files := #[⟨"bad.cpp", false⟩]
  types := ⟨#[.builtin .int, .pointer ⟨⟨0⟩, false⟩, .record ⟨0⟩, .synonym "Alias" ⟨⟨2⟩, false⟩]⟩
  scopes := #[{ name := none, kind := .translationUnit, parent := none, attributes := .empty }]
  records :=
    let place : Location := ⟨some ⟨0⟩, ⟨0, 0⟩⟩
    #[{ RecordDecl.declared "Bad" ⟨0⟩ place with
      definition := some ⟨[⟨"p", ⟨⟨1⟩, false⟩, place, false⟩], [], []⟩ }]
  functions := #[]
  vars := #[]
  statements := #[]

open Ledger in
/-- A question about the constant alias leaves the reasons for the struct to be given: its pointer
is not safe. Once they have been given, one verdict has been taken for both, and there are no
reasons left to give for the alias, which is not safe either. -/
theorem aliased_answers_afresh :
    TranslationUnit.aliased.inconsistency? = none ∧ TranslationUnit.aliased.TypesFounded
    ∧ TranslationUnit.aliased.NakedFounded
    ∧ ∃ s, Setting.of .aliased .default = .ok s
      ∧ (∃ l, [Call.query .heapSafe ⟨⟨3⟩, true⟩].foldlM (perform s) empty = .ok l
        ∧ ∃ l', l.explain s .heapSafe ⟨⟨2⟩, false⟩ =
          .ok ([⟨⟨some ⟨0⟩, ⟨0, 0⟩⟩, "member 'p' is not safe", .note⟩], l'))
      ∧ ∃ l,
        [Call.query .heapSafe ⟨⟨3⟩, true⟩, .report .heapSafe ⟨⟨2⟩, false⟩].foldlM (perform s) empty
          = .ok l
        ∧ l.size = 1 ∧ (∃ l', l.verdict s .heapSafe ⟨⟨3⟩, false⟩ = .ok (.other, l'))
        ∧ ∃ l', l.explain s .heapSafe ⟨⟨3⟩, false⟩ = .ok ([], l') := by
  have consistent : TranslationUnit.aliased.inconsistency? = none := by decide
  have con := TranslationUnit.inconsistency?_eq_none_iff.mp consistent
  have types := con.typesFounded (by decide)
  have naked := TranslationUnit.nakedFounded_of_untagged (u := .aliased) (by decide)
  obtain ⟨s, isSetting, all⟩ := answers_afresh consistent types naked .default
  have told : (Setting.of .aliased .default >>= fun s => classify s (.speaking .note) .heapSafe
      ⟨⟨2⟩, false⟩) = .ok (.other, [⟨⟨some ⟨0⟩, ⟨0, 0⟩⟩, "member 'p' is not safe", .note⟩]) := by
    decide +kernel
  have quiet : (Setting.of .aliased .default >>= fun s => classify s .silent .heapSafe
      ⟨⟨3⟩, false⟩) = .ok (.other, []) := by
    decide +kernel
  rw [isSetting, ok_bind] at told quiet
  obtain ⟨_, same, isUnit, -⟩ := (Setting.of_ends con .default).answer
  cases isSetting.symm.trans same
  obtain ⟨unit, config, trusted⟩ := s
  cases isUnit
  refine ⟨consistent, types, naked, _, isSetting, ?_, ?_⟩
  · obtain ⟨l, -, performed, -, -, answers⟩ := all [.query .heapSafe ⟨⟨3⟩, true⟩] (by decide)
    obtain ⟨c, v, remarks, canonical, -, noted, -, -, given, l', explain, reasons, -⟩ :=
      answers .heapSafe ⟨⟨2⟩, false⟩ (by decide)
    cases told.symm.trans noted
    have unreported : ¬ Reported ⟨.aliased, config, trusted⟩
        [.query .heapSafe ⟨⟨3⟩, true⟩] (c.id, .heapSafe) := by
      rintro ⟨t, mem, -⟩
      cases List.mem_singleton.mp mem
    rw [reasons ⟨rfl, unreported⟩] at explain
    exact ⟨l, performed, l', explain⟩
  · obtain ⟨l, asked, performed, keys, size, answers⟩ :=
      all [.query .heapSafe ⟨⟨3⟩, true⟩, .report .heapSafe ⟨⟨2⟩, false⟩] (by decide)
    obtain ⟨c, v, remarks, canonical, silent, -, -, verdict, given, l', explain, -, nothing⟩ :=
      answers .heapSafe ⟨⟨3⟩, false⟩ (by decide)
    cases quiet.symm.trans silent
    have slots : asked = [(⟨2⟩, .heapSafe), (⟨2⟩, .heapSafe)] := Except.ok.inj (keys.symm.trans rfl)
    have slot : c = ⟨⟨2⟩, false⟩ := Except.ok.inj (canonical.symm.trans rfl)
    have reported : Reported ⟨.aliased, config, trusted⟩
        [.query .heapSafe ⟨⟨3⟩, true⟩, .report .heapSafe ⟨⟨2⟩, false⟩] (c.id, .heapSafe) := by
      rw [slot]
      exact ⟨⟨⟨2⟩, false⟩, .tail _ (.head _), rfl⟩
    rw [nothing fun first => first.2 reported] at explain
    refine ⟨l, performed, ?_, verdict, l', explain⟩
    rw [size, slots]
    decide

end SafeDialect
