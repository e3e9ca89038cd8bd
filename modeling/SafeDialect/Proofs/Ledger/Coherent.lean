/-
Coherent ledgers.

A ledger is coherent if each of its entries holds the verdict that a quiet classification gives on
its slot. On a coherent ledger a question and an explanation come down to classifications of the
very type that is asked about, and they leave a coherent ledger behind. All that depends on the past
is which failures have been explained.
-/
import Mathlib.Data.List.Nodup
import SafeDialect.Proofs.Classifier.Alike
import SafeDialect.Proofs.Classifier.Script

namespace SafeDialect

namespace Ledger

variable {s : Setting} {l : Ledger} {a : Aspect} {t c : QualifiedType} {v : Verdict}
  {remarks : List Remark} {id : TypeId}

-- ============================================================ what a classification tells

/-- A quiet classification gives the verdict, and one that makes notes gives the same verdict with
the remarks. -/
structure Tells (s : Setting) (a : Aspect) (t : QualifiedType) (v : Verdict)
    (remarks : List Remark) : Prop where
  quiet : classify s .silent a t = .ok (v, [])
  noted : classify s (.speaking .note) a t = .ok (v, remarks)
  notes : ∀ r ∈ remarks, r.severity = .note

/-- A classification that gives a verdict with one voice gives it with every voice. -/
theorem exists_tells {voice : Voice} {said : List Remark}
    (answer : classify s voice a t = .ok (v, said)) : ∃ remarks, Tells s a t v remarks := by
  obtain ⟨transcript, same⟩ := exists_transcript s a t
  rw [same] at answer
  cases transcript with
  | error fault => cases answer
  | ok k =>
    obtain ⟨verdict, lines⟩ := k
    cases answer
    refine ⟨lines.map fun line => ⟨line.1, line.2, .note⟩, ?_, ?_, ?_⟩
    · rw [same]
      show Except.ok (verdict, (Voice.silent.sayAll lines).said) = _
      rw [Voice.silent_sayAll]
      rfl
    · rw [same]
      show Except.ok (verdict, (Voice.sayAll ⟨some .note, []⟩ lines).said) = _
      rw [Voice.sayAll_of_note]
      rfl
    · intro r mem
      obtain ⟨line, -, rfl⟩ := List.mem_map.mp mem
      rfl

/-- Types that are alike are told the same. -/
theorem Tells.congr {t' : QualifiedType} (tells : Tells s a t v remarks) (alike : s.Alike t t') :
    Tells s a t' v remarks := by
  refine ⟨?_, ?_, tells.notes⟩
  · rw [← classify_congr alike]
    exact tells.quiet
  · rw [← classify_congr alike]
    exact tells.noted

/-- A classification gives one answer. -/
theorem Tells.unique {v' : Verdict} {remarks' : List Remark} (tells : Tells s a t v remarks)
    (tells' : Tells s a t v' remarks') : v = v' ∧ remarks = remarks' := by
  have same := tells.noted
  rw [tells'.noted] at same
  cases same
  exact ⟨rfl, rfl⟩

-- ============================================================ entries

/-- What the ledger has verdicts on. -/
def keys (l : Ledger) : List (TypeId × Aspect) := l.entries.map fun e => (e.type, e.aspect)

/-- Whether there is an explained verdict. -/
def isExplained (l : Ledger) (id : TypeId) (a : Aspect) : Bool :=
  (l.find? id a).any (·.isExplained)

/-- The ledger with a verdict, new unless there is one already. -/
def withVerdict (l : Ledger) (id : TypeId) (a : Aspect) (v : Verdict) : Ledger :=
  if (id, a) ∈ l.keys then l else ⟨l.entries ++ [⟨id, a, v, false⟩]⟩

private theorem find?_eq_none_iff : l.find? id a = none ↔ (id, a) ∉ l.keys := by
  unfold find? keys
  rw [List.find?_eq_none, List.mem_map]
  constructor
  · rintro none ⟨e, mem, same⟩
    refine none e mem ?_
    obtain ⟨rfl, rfl⟩ := Prod.mk.inj same
    simp
  · intro none e mem same
    refine none ⟨e, mem, ?_⟩
    simp only [Bool.and_eq_true, beq_iff_eq] at same
    rw [same.1, same.2]

/-- What is found is an entry about that slot and aspect. -/
theorem of_find? {e : LedgerEntry} (found : l.find? id a = some e) :
    e ∈ l.entries ∧ e.type = id ∧ e.aspect = a := by
  have is := List.find?_some found
  simp only [Bool.and_eq_true, beq_iff_eq] at is
  exact ⟨List.mem_of_find?_eq_some found, is⟩

private theorem mem_keys_of_find? {e : LedgerEntry} (found : l.find? id a = some e) :
    (id, a) ∈ l.keys := by
  by_contra missing
  rw [find?_eq_none_iff.mpr missing] at found
  cases found

/-- Noting a verdict adds its key, if it is new, and no other. -/
theorem mem_keys_withVerdict {k : TypeId × Aspect} :
    k ∈ (l.withVerdict id a v).keys ↔ k ∈ l.keys ∨ k = (id, a) := by
  unfold withVerdict
  by_cases known : (id, a) ∈ l.keys
  · rw [if_pos known]
    constructor
    · exact .inl
    · rintro (mem | rfl)
      · exact mem
      · exact known
  · rw [if_neg known]
    simp [keys]

/-- Marking an entry adds none. -/
theorem keys_markExplained : (l.markExplained id a).keys = l.keys := by
  unfold keys markExplained
  rw [List.map_map]
  refine List.map_congr_left fun e _ => ?_
  dsimp only [Function.comp]
  split <;> rfl

/-- A new verdict is not explained, and the others are explained or not as before. -/
theorem isExplained_withVerdict (id' : TypeId) (a' : Aspect) :
    (l.withVerdict id a v).isExplained id' a' = l.isExplained id' a' := by
  unfold withVerdict
  split
  · rfl
  · unfold isExplained find?
    rw [List.find?_append]
    cases l.entries.find? fun e => e.type == id' && e.aspect == a' with
    | some e => rfl
    | none =>
      rw [Option.none_or, List.find?_singleton]
      split <;> rfl

private theorem find?_markExplained (id' : TypeId) (a' : Aspect) :
    (l.markExplained id a).find? id' a' = (l.find? id' a').map fun e =>
      if e.type = id ∧ e.aspect = a then { e with isExplained := true } else e := by
  unfold find? markExplained
  rw [List.find?_map]
  congr 2
  funext e
  dsimp only [Function.comp]
  split <;> rfl

/-- What is explained afterwards was explained before, or is what has just been marked. -/
theorem isExplained_markExplained (known : (id, a) ∈ l.keys) (id' : TypeId) (a' : Aspect) :
    (l.markExplained id a).isExplained id' a' = true ↔
      l.isExplained id' a' = true ∨ (id' = id ∧ a' = a) := by
  unfold isExplained
  rw [find?_markExplained]
  cases found : l.find? id' a' with
  | none =>
    constructor
    · nofun
    · rintro (h | ⟨rfl, rfl⟩)
      · cases h
      · exact absurd known (find?_eq_none_iff.mp found)
  | some e =>
    obtain ⟨-, rfl, rfl⟩ := of_find? found
    show (if _ then _ else _ : LedgerEntry).isExplained = true ↔ e.isExplained = true ∨ _
    split
    · next here => exact iff_of_true rfl (.inr here)
    · next other => exact (or_iff_left other).symm

-- ============================================================ coherence

/-- Each entry holds the verdict that a quiet classification gives, and no two are about the
same. -/
structure Coherent (s : Setting) (l : Ledger) : Prop where
  nodup : l.keys.Nodup
  verdicts : ∀ e ∈ l.entries, ∀ c, s.canonical c = .ok c → c.id = e.type →
    classify s .silent e.aspect c = .ok (e.verdict, [])

/-- A ledger with no entries is coherent. -/
theorem coherent_empty : Coherent s empty := ⟨List.nodup_nil, nofun⟩

/-- An entry that says what a classification says keeps a ledger coherent. -/
theorem Coherent.withVerdict (coherent : l.Coherent s) (canonical : s.canonical c = .ok c)
    (answer : classify s .silent a c = .ok (v, [])) : (l.withVerdict c.id a v).Coherent s := by
  unfold Ledger.withVerdict
  split
  · exact coherent
  · next new =>
    refine ⟨?_, fun e mem c' canonical' same => ?_⟩
    · unfold keys
      rw [List.map_append]
      refine List.nodup_append'.mpr ⟨coherent.nodup, List.nodup_singleton _, ?_⟩
      rw [List.map_singleton, List.disjoint_singleton]
      exact new
    · rcases List.mem_append.mp mem with old | here
      · exact coherent.verdicts e old c' canonical' same
      -- a type on the same slot is alike, so it has the same verdict
      · cases List.mem_singleton.mp here
        rw [← classify_congr ⟨c, c', canonical, canonical', same.symm⟩]
        exact answer

/-- Marking an entry does not change what it says. -/
theorem Coherent.markExplained (coherent : l.Coherent s) : (l.markExplained id a).Coherent s := by
  constructor
  · rw [keys_markExplained]
    exact coherent.nodup
  · intro e mem c canonical same
    obtain ⟨old, known, rfl⟩ := List.mem_map.mp mem
    by_cases here : old.type = id ∧ old.aspect = a
    · rw [if_pos here] at same ⊢
      exact coherent.verdicts old known c canonical same
    · rw [if_neg here] at same ⊢
      exact coherent.verdicts old known c canonical same

-- ============================================================ questions

section Questions

variable (coherent : l.Coherent s)
include coherent

/-- On a coherent ledger a verdict is that of a quiet classification. -/
theorem verdictOn_of_quiet (canonical : s.canonical c = .ok c)
    (quiet : classify s .silent a c = .ok (v, [])) :
    verdictOn s l a c = .ok (v, l.withVerdict c.id a v) := by
  unfold verdictOn withVerdict
  cases found : l.find? c.id a with
  | none =>
    rw [if_neg (find?_eq_none_iff.mp found), quiet]
    rfl
  | some e =>
    obtain ⟨mem, isType, rfl⟩ := of_find? found
    rw [if_pos (mem_keys_of_find? found)]
    have entered := coherent.verdicts e mem c canonical isType.symm
    rw [quiet] at entered
    cases entered
    rfl

variable (canonical : s.canonical t = .ok c) (tells : Tells s a t v remarks)
include canonical tells

/-- The ledger answers what a classification tells, from an entry or by asking for one. -/
theorem verdict_of_tells : l.verdict s a t = .ok (v, l.withVerdict c.id a v) := by
  have tellsC := tells.congr (Setting.alike_canonical canonical)
  unfold verdict
  rw [canonical, ok_bind]
  exact verdictOn_of_quiet coherent (Setting.canonical_idem canonical) tellsC.quiet

/-- A failure that has not been explained is explained by the notes of a classification, and
nothing else is. -/
theorem explain_of_tells :
    l.explain s a t = .ok
      (if a.isFailure v && !l.isExplained c.id a then
        (remarks, (l.withVerdict c.id a v).markExplained c.id a)
      else ([], l.withVerdict c.id a v)) := by
  have tellsC := tells.congr (Setting.alike_canonical canonical)
  have known : (c.id, a) ∈ (l.withVerdict c.id a v).keys := mem_keys_withVerdict.mpr (.inr rfl)
  have explained : (((l.withVerdict c.id a v).find? c.id a).map (·.isExplained)).getD true =
      l.isExplained c.id a := by
    rw [← isExplained_withVerdict (v := v)]
    unfold isExplained
    cases found : (l.withVerdict c.id a v).find? c.id a with
    | none => exact absurd known (find?_eq_none_iff.mp found)
    | some e => rfl
  unfold explain
  rw [canonical, ok_bind,
    verdictOn_of_quiet coherent (Setting.canonical_idem canonical) tellsC.quiet, ok_bind]
  show (if a.isFailure v && !(((l.withVerdict c.id a v).find? c.id a).map (·.isExplained)).getD true
    then _ else _ : Result _) = _
  rw [explained, tellsC.noted]
  split <;> rfl

end Questions

end Ledger

end SafeDialect
