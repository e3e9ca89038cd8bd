/-
What a rule says does not depend on what other rules have left behind.

The rules of a run share one ledger, and a failure is explained only once. A step is *indifferent*,
up to some aspects, if from any two coherent ledgers that agree on the explained failures of these
aspects it gives the same answer and the same remarks, and if it explains no failure of another
aspect. Every rule is indifferent up to the aspects that it explains.
-/
import SafeDialect.Proofs.Ledger.Coherent
import SafeDialect.Rules.Checker

namespace SafeDialect

variable {s : Setting} {A : List Aspect}

-- ============================================================ journals

namespace Journal

/-- Remarks are put down in their order. -/
theorem reportAll_append (j : Journal) (first rest : List Remark) :
    (j.reportAll first).reportAll rest = j.reportAll (first ++ rest) :=
  List.foldl_append.symm

/-- Remarks become findings of the rule that is running. -/
theorem reportAll_eq (j : Journal) (remarks : List Remark) :
    j.reportAll remarks =
      ⟨j.rule, j.findings ++ remarks.map fun r => ⟨r.location, r.message, r.severity, j.rule⟩⟩ := by
  induction remarks generalizing j with
  | nil =>
    rw [List.map_nil, List.append_nil]
    rfl
  | cons r rest ih =>
    show (j.report r).reportAll rest = _
    rw [ih, List.map_cons]
    unfold report
    rw [List.append_assoc]
    rfl

end Journal

-- ============================================================ ledgers that agree

namespace Ledger

variable {l l' : Ledger} {a : Aspect} {t c : QualifiedType} {v : Verdict} {remarks : List Remark}

/-- A verdict in a coherent ledger comes from a classification. -/
theorem Coherent.exists_tells {r : Verdict × Ledger} (coherent : l.Coherent s)
    (canonical : s.canonical t = .ok c) (answer : verdictOn s l a c = .ok r) :
    ∃ v remarks, Tells s a t v remarks := by
  suffices ∃ v said, classify s .silent a c = .ok (v, said) by
    obtain ⟨v, said, quiet⟩ := this
    rw [← classify_congr (Setting.alike_canonical canonical)] at quiet
    exact ⟨v, Ledger.exists_tells quiet⟩
  unfold verdictOn at answer
  cases found : l.find? c.id a with
  | some e =>
    obtain ⟨mem, isType, rfl⟩ := of_find? found
    have again := Setting.canonical_idem canonical
    exact ⟨e.verdict, [], coherent.verdicts e mem c again isType.symm⟩
  | none =>
    rw [found] at answer
    obtain ⟨⟨v, said⟩, quiet, -⟩ := bind_eq_ok.mp answer
    exact ⟨v, said, quiet⟩

/-- A verdict of a coherent ledger comes from a classification, be it an old or a new one. -/
theorem Coherent.tells_of_verdict {r : Verdict × Ledger} (coherent : l.Coherent s)
    (given : l.verdict s a t = .ok r) :
    ∃ c v remarks, s.canonical t = .ok c ∧ Tells s a t v remarks := by
  obtain ⟨c, canonical, answer⟩ := bind_eq_ok.mp given
  obtain ⟨v, remarks, tells⟩ := coherent.exists_tells canonical answer
  exact ⟨c, v, remarks, canonical, tells⟩

/-- And so do reasons. -/
theorem Coherent.tells_of_explain {r : List Remark × Ledger} (coherent : l.Coherent s)
    (given : l.explain s a t = .ok r) :
    ∃ c v remarks, s.canonical t = .ok c ∧ Tells s a t v remarks := by
  obtain ⟨c, canonical, given⟩ := bind_eq_ok.mp given
  obtain ⟨_, answer, -⟩ := bind_eq_ok.mp given
  obtain ⟨v, remarks, tells⟩ := coherent.exists_tells canonical answer
  exact ⟨c, v, remarks, canonical, tells⟩

/-- Ledgers that are coherent, and agree on the explained failures of some aspects. -/
structure Agree (s : Setting) (A : List Aspect) (l l' : Ledger) : Prop where
  left : l.Coherent s
  right : l'.Coherent s
  explained : ∀ a ∈ A, ∀ id, l.isExplained id a = l'.isExplained id a

/-- Noting the verdict of a classification keeps ledgers in agreement, whichever of them had it. -/
theorem Agree.withVerdict (agree : Agree s A l l') (canonical : s.canonical t = .ok c)
    (tells : Tells s a t v remarks) :
    Agree s A (l.withVerdict c.id a v) (l'.withVerdict c.id a v) := by
  have again := Setting.canonical_idem canonical
  have tellsC := tells.congr (Setting.alike_canonical canonical)
  refine ⟨agree.left.withVerdict again tellsC.quiet, agree.right.withVerdict again tellsC.quiet,
    fun a' mem id => ?_⟩
  rw [isExplained_withVerdict, isExplained_withVerdict]
  exact agree.explained a' mem id

/-- So does marking an entry that both have. -/
theorem Agree.markExplained {id : TypeId} (agree : Agree s A l l') (known : (id, a) ∈ l.keys)
    (known' : (id, a) ∈ l'.keys) : Agree s A (l.markExplained id a) (l'.markExplained id a) := by
  refine ⟨agree.left.markExplained, agree.right.markExplained, fun a' mem id' => ?_⟩
  rw [Bool.eq_iff_iff, isExplained_markExplained known, isExplained_markExplained known',
    agree.explained a' mem id']

end Ledger

-- ============================================================ indifferent steps

/-- From ledgers that agree on the explained failures of some aspects a step does the same, and it
explains no failure of another aspect. -/
def Indifferent {α : Type} (s : Setting) (A : List Aspect) (m : Check α) : Prop :=
  ∀ l l' : Ledger, l.Agree s A l' → ∀ j j' answer r, m ⟨l, j⟩ = .ok (answer, r) →
    ∃ after after' remarks, r = ⟨after, j.reportAll remarks⟩
      ∧ m ⟨l', j'⟩ = .ok (answer, ⟨after', j'.reportAll remarks⟩) ∧ after.Agree s A after'
      ∧ ∀ a ∉ A, ∀ id, after.isExplained id a = l.isExplained id a

namespace Indifferent

variable {α β : Type} {m : Check α}

/-- What is at hand looks at no ledger. -/
theorem pure {a : α} : Indifferent s A (Pure.pure a : Check α) := by
  intro l l' agree j j' answer r run
  cases run
  exact ⟨l, l', [], rfl, rfl, agree, fun _ _ _ => rfl⟩

/-- Steps one after the other: the ledgers agree in between, and neither explains more than it
may. -/
theorem bind {f : α → Check β} (first : Indifferent s A m) (next : ∀ a, Indifferent s A (f a)) :
    Indifferent s A (m >>= f) := by
  intro l l' agree j j' answer r run
  obtain ⟨⟨a, _⟩, ofFirst, ofNext⟩ := bind_eq_ok.mp run
  obtain ⟨l₁, l₁', said, rfl, run', agree₁, kept⟩ := first l l' agree j j' a _ ofFirst
  obtain ⟨l₂, l₂', more, rfl, runNext', agree₂, kept₂⟩ :=
    next a l₁ l₁' agree₁ _ (j'.reportAll said) answer r ofNext
  refine ⟨l₂, l₂', said ++ more, ?_, ?_, agree₂, fun a new id => ?_⟩
  · rw [Journal.reportAll_append]
  · rw [← Journal.reportAll_append]
    exact bind_eq_ok.mpr ⟨_, run', runNext'⟩
  · rw [kept₂ a new id, kept a new id]

/-- A look-up at the start of a step. -/
theorem look {x : Result α} {f : α → Check β} (next : ∀ a, Indifferent s A (f a)) :
    Indifferent s A (liftM x >>= f) := by
  cases x with
  | error fault =>
    intro l l' agree j j' answer r run
    cases run
  | ok a => exact next a

/-- A loop is indifferent if each pass is. -/
theorem forIn {l : List α} {f : α → β → Check (ForInStep β)} {init : β}
    (each : ∀ a b, Indifferent s A (f a b)) : Indifferent s A (ForIn.forIn l init f) := by
  induction l generalizing init with
  | nil => exact pure
  | cons head tail ih =>
    rw [List.forIn_cons]
    refine bind (each head init) fun pass => ?_
    cases pass with
    | done b => exact pure
    | yield b => exact ih

-- ============================================================ remarks

/-- A report looks at no ledger. -/
theorem reportAll {remarks : List Remark} : Indifferent s A (Check.reportAll remarks) := by
  intro l l' agree j j' answer r run
  cases run
  exact ⟨l, l', remarks, rfl, rfl, agree, fun _ _ _ => rfl⟩

theorem error {location : Location} {message : String} :
    Indifferent s A (Check.error location message) := reportAll

/-- A question, and an error if the answer is bad. -/
theorem orError {passes : α → Bool} {location : Location} {message : String}
    (h : Indifferent s A m) :
    Indifferent s A (do
      if passes (← m) then return ⟨⟩
      else Check.error location message) := by
  refine bind h fun answer => ?_
  split
  · exact pure
  · exact error

/-- Nor does a quiet inspection. -/
theorem quiet {act : Inspect α} : Indifferent s A (Check.quiet act) :=
  look fun _ => pure

/-- Reasons from an inspection are given as often as they are asked for. -/
theorem errorExplainedBy {location : Location} {message : String} {act : Inspect α} :
    Indifferent s A (Check.errorExplainedBy location message act) :=
  look fun _ => reportAll

/-- A question that is asked quietly, and once more for the reasons if the answer is bad. -/
theorem passesOrError {act : Inspect α} {passes : α → Bool} {location : Location}
    {message : String} :
    Indifferent s A (do
      if passes (← Check.quiet act) then return ⟨⟩
      else Check.errorExplainedBy location message act) := by
  refine bind quiet fun answer => ?_
  split
  · exact pure
  · exact errorExplainedBy

/-- What is spoken of looks at no ledger either. -/
theorem speak {act : Speak α} : Indifferent s A (Check.speak act) :=
  look fun _ => bind reportAll fun _ => pure

-- ============================================================ the ledger

variable {a : Aspect} {t : QualifiedType}

/-- A verdict changes the ledger and leaves the journal. -/
theorem verdict_run {l : Ledger} {j : Journal} :
    Check.verdict s a t ⟨l, j⟩ = (l.verdict s a t).map fun given => (given.1, ⟨given.2, j⟩) := by
  show (liftM (l.verdict s a t) >>= fun given : Verdict × Ledger => do
    set (⟨given.2, j⟩ : Run)
    return given.1 : Check Verdict) ⟨l, j⟩ = _
  cases l.verdict s a t with
  | error fault => rfl
  | ok given => rfl

/-- Both ledgers give the same verdict, from an entry or by asking. -/
theorem verdict : Indifferent s A (Check.verdict s a t) := by
  intro l l' agree j j' answer r run
  rw [verdict_run] at run
  cases given : l.verdict s a t with
  | error fault =>
    rw [given] at run
    cases run
  | ok _ =>
    obtain ⟨c, v, remarks, canonical, tells⟩ := agree.left.tells_of_verdict given
    rw [Ledger.verdict_of_tells agree.left canonical tells] at run
    cases run
    refine ⟨l.withVerdict c.id a v, l'.withVerdict c.id a v, [], rfl, ?_,
      agree.withVerdict canonical tells, fun a' _ id => Ledger.isExplained_withVerdict id a'⟩
    rw [verdict_run, Ledger.verdict_of_tells agree.right canonical tells]
    rfl

/-- Reasons change the ledger and go into the journal. -/
theorem explain_run {l : Ledger} {j : Journal} :
    Check.explain s a t ⟨l, j⟩ =
      (l.explain s a t).map fun given => (⟨⟩, ⟨given.2, j.reportAll given.1⟩) := by
  show (liftM (l.explain s a t) >>= fun given : List Remark × Ledger => do
    set (⟨given.2, j⟩ : Run)
    Check.reportAll given.1 : Check PUnit) ⟨l, j⟩ = _
  cases l.explain s a t with
  | error fault => rfl
  | ok given => rfl

/-- Explaining a failure of one of the aspects: the ledgers agree on whether it has been done. -/
theorem explain (mem : a ∈ A) : Indifferent s A (Check.explain s a t) := by
  intro l l' agree j j' answer r run
  rw [explain_run] at run
  cases given : l.explain s a t with
  | error fault =>
    rw [given] at run
    cases run
  | ok _ =>
    obtain ⟨c, v, remarks, canonical, tells⟩ := agree.left.tells_of_explain given
    have agree₁ := agree.withVerdict canonical tells
    -- a ledger notes the verdict before it marks the failure, so there is an entry to mark
    have known (l : Ledger) : (c.id, a) ∈ (l.withVerdict c.id a v).keys :=
      Ledger.mem_keys_withVerdict.mpr (.inr rfl)
    rw [Ledger.explain_of_tells agree.left canonical tells, agree.explained a mem] at run
    rw [explain_run, Ledger.explain_of_tells agree.right canonical tells]
    split at run
    · next first =>
      cases run
      refine ⟨_, _, remarks, rfl, ?_, agree₁.markExplained (known l) (known l'),
        fun a' other id => ?_⟩
      · rw [if_pos first]
        rfl
      · rw [Bool.eq_iff_iff, Ledger.isExplained_markExplained (known l),
          Ledger.isExplained_withVerdict, or_iff_left]
        rintro ⟨-, rfl⟩
        exact other mem
    · next notFirst =>
      cases run
      refine ⟨_, _, [], rfl, ?_, agree₁, fun a' _ id => Ledger.isExplained_withVerdict id a'⟩
      rw [if_neg notFirst]
      rfl

end Indifferent

end SafeDialect
