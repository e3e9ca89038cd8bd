/-
Rules run together find what each of them finds alone.

No two rules explain failures of the same aspect. So what one rule leaves in the shared ledger is
coherent and has nothing explained that the next one would explain: that one finds what it would
find with an empty ledger.
-/
import Mathlib.Data.List.Destutter
import SafeDialect.Proofs.Rules.Checker
import SafeDialect.Proofs.Rules.Indifferent

namespace SafeDialect

variable {s : Setting} {A : List Aspect}

/-- The aspects whose failures a rule explains. -/
def Rule.explains : Rule → List Aspect
  | varDecl => [.deepConst, .nullablePtr, .nakedStruct, .heapSafe]
  | determinism => [.deterministic]
  | recordDecl | rawPointerAssignment | returnValue | mayExtend => []

/-- No two rules explain failures of the same aspect. -/
theorem Rule.explains_disjoint {rule other : Rule} (differ : rule ≠ other) :
    ∀ a ∈ other.explains, a ∉ rule.explains := by
  revert differ
  cases rule <;> cases other <;> decide

namespace Setting

-- ============================================================ records

/-- Reasons for a record come from an inspection, and not from the ledger. -/
private theorem checkRecord_indifferent {id : RecordId} : Indifferent s A (s.checkRecord id) := by
  refine .look fun r => ?_
  dsimp only
  split
  · exact .passesOrError
  · split
    · refine .bind .quiet fun verdict => ?_
      split
      · exact .passesOrError
      · exact .bind .errorExplainedBy fun _ => .passesOrError
    · exact .passesOrError

/-- So the rule on records leaves nothing explained behind. -/
private theorem checkRecords_indifferent : Indifferent s A s.checkRecords := by
  refine .look fun ids => .bind (.forIn fun id _ => .look fun r => ?_) fun _ => .pure
  split
  · exact .pure
  · exact .bind checkRecord_indifferent fun _ => .pure

-- ============================================================ variables

section Variables

variable {v : VariableDecl} {t : QualifiedType}

private theorem checkReferenceInit_indifferent : Indifferent s A (checkReferenceInit v) := by
  unfold checkReferenceInit
  split
  · exact .bind .error fun _ => .pure
  · split
    · exact .bind .error fun _ => .pure
    · exact .pure

private theorem checkPointerVariable_indifferent :
    Indifferent s A (s.checkPointerVariable v t) := by
  unfold checkPointerVariable
  split
  · exact .error
  refine .bind .verdict fun verdict => ?_
  split
  · exact .error
  split
  · exact .error
  · exact .pure

/-- An error, and the reasons for a verdict. -/
theorem errorExplained_indifferent {a : Aspect} {location : Location} {message : String}
    (mem : a ∈ A) : Indifferent s A (do Check.error location message; Check.explain s a t) :=
  .bind .error fun _ => .explain mem

/-- What may be on the stack is explained as a nullable pointer, as a naked struct or as unsafe. -/
private theorem checkStackVariable_indifferent :
    Indifferent s Rule.varDecl.explains (s.checkStackVariable v t) := by
  refine .bind .verdict fun nullable => ?_
  split
  · split
    · exact .pure
    · exact errorExplained_indifferent (by decide)
  refine .bind .verdict fun naked => ?_
  split
  · split
    · exact errorExplained_indifferent (by decide)
    split
    · exact .error
    · exact .pure
  refine .look fun isLambda => ?_
  split
  · split
    · exact .error
    · exact .pure
  · exact errorExplained_indifferent (by decide)

private theorem checkUnsafeVariable_indifferent :
    Indifferent s Rule.varDecl.explains (s.checkUnsafeVariable v t) := by
  refine .look fun shape => ?_
  split
  · exact .orError .verdict
  refine .look fun isFunction => ?_
  split
  · exact .pure
  refine .look fun isAwaitable => ?_
  split
  · exact .pure
  split
  · exact checkPointerVariable_indifferent
  · exact checkStackVariable_indifferent

/-- The reasons for a type are given under four aspects. A union is explained by an inspection. -/
private theorem checkVariableType_indifferent :
    Indifferent s Rule.varDecl.explains (s.checkVariableType v t) := by
  refine .look fun union => ?_
  cases union with
  | some id => exact .passesOrError
  | none =>
    refine .bind .verdict fun deepConst => ?_
    split
    · exact errorExplained_indifferent (by decide)
    refine .bind .verdict fun safe => ?_
    split
    · exact .pure
    · exact checkUnsafeVariable_indifferent

private theorem checkVariable_indifferent {id : VariableId} :
    Indifferent s Rule.varDecl.explains (s.checkVariable id) := by
  refine .look fun v => .look fun isExempt => ?_
  split
  · exact .pure
  refine .look fun c => ?_
  dsimp only
  have judged : Indifferent s Rule.varDecl.explains
      (do s.checkVariableType v (← s.judgedType c)) :=
    .look fun _ => checkVariableType_indifferent
  refine .look fun isReference => ?_
  split
  · refine .bind checkReferenceInit_indifferent fun passes => ?_
    split
    · exact judged
    · exact .pure
  · exact judged

/-- The rule on variables, one after the other. -/
private theorem checkVariables_indifferent : Indifferent s Rule.varDecl.explains s.checkVariables :=
  .look fun _ => .bind (.forIn fun _ _ => .bind checkVariable_indifferent fun _ => .pure)
    fun _ => .pure

-- ============================================================ determinism

/-- A type that is not deterministic is explained as such, and as nothing else. -/
private theorem checkDeterminismOf_indifferent {id : VariableId} :
    Indifferent s Rule.determinism.explains (s.checkDeterminismOf id) := by
  refine .look fun v => .look fun needed => ?_
  split
  · refine .look fun c => .bind .verdict fun verdict => ?_
    split
    · exact .pure
    refine .look fun shape => ?_
    split
    · exact errorExplained_indifferent (by decide)
    split
    · exact .error
    · exact .pure
  · exact .pure

/-- The rule on determinism. -/
private theorem checkDeterminism_indifferent :
    Indifferent s Rule.determinism.explains s.checkDeterminism :=
  .look fun _ => .bind (.forIn fun _ _ => .bind checkDeterminismOf_indifferent fun _ => .pure)
    fun _ => .pure

end Variables

-- ============================================================ assignments and results

/-- An assignment takes verdicts from the ledger and explains none of them. -/
private theorem checkAssignment_indifferent {e : Expr} : Indifferent s A (s.checkAssignment e) := by
  unfold checkAssignment
  split
  · refine .look fun isPointer => ?_
    split
    · exact .orError .speak
    · exact .pure
  · refine .look fun isAssignment => ?_
    split
    · refine .bind .verdict fun verdict => ?_
      split
      · exact .orError .speak
      · exact .pure
    · exact .pure
  · exact .pure

/-- The rule on assignments. -/
private theorem checkAssignments_indifferent : Indifferent s A s.checkAssignments := by
  refine .look fun fs => .bind (.forIn fun f _ => ?_) fun _ => .pure
  refine .look fun nodes => .bind (.forIn fun e _ => ?_) fun _ => .pure
  exact .bind checkAssignment_indifferent fun _ => .pure

private theorem checkReturn_indifferent {id : StmtId} : Indifferent s A (s.checkReturn id) := by
  refine .look fun stmt => ?_
  split
  · exact .orError .speak
  · exact .pure

/-- The rule on results. -/
private theorem checkReturns_indifferent : Indifferent s A s.checkReturns := by
  refine .look fun fs => .bind (.forIn fun f _ => ?_) fun _ => .pure
  refine .look fun decl => .bind .verdict fun verdict => ?_
  split
  · refine .look fun stmts => .bind (.forIn fun id _ => ?_) fun _ => .pure
    exact .bind checkReturn_indifferent fun _ => .pure
  · exact .pure

-- ============================================================ arguments that are kept

section Kept

variable {ofThis : Bool} {owner : Option RecordId}

/-- What is wrong with a capture is told by verdicts. -/
private theorem captureComplaint_indifferent {kind : CaptureKind} :
    Indifferent s A (s.captureComplaint ofThis owner kind) := by
  cases kind with
  | thisPointer =>
    cases owner with
    | none => exact .pure
    | some id =>
      cases ofThis with
      | true => exact .pure
      | false => exact .look fun _ => .pure
  | byCopy id =>
    refine .look fun v => .bind .verdict fun verdict => ?_
    split
    · exact .pure
    · exact .pure
  | thisCopy | byReference | array => exact .pure

private theorem checkCaptures_indifferent {captures : List Capture} :
    Indifferent s A (s.checkCaptures ofThis owner captures) := by
  induction captures with
  | nil => exact .pure
  | cons capture rest ih =>
    unfold checkCaptures
    refine .bind captureComplaint_indifferent fun complaint => ?_
    cases complaint with
    | some complaint => exact .bind .error fun _ => .pure
    | none => exact ih

/-- A lambda passes or not by its captures, and there is no aspect to explain. -/
private theorem checkAsLambda_indifferent {arg : Expr} :
    Indifferent s A (s.checkAsLambda ofThis owner arg) := by
  unfold checkAsLambda
  split
  · exact .bind checkCaptures_indifferent fun _ => .pure
  · refine .look fun v => ?_
    split
    · exact .pure
    · refine .bind checkCaptures_indifferent fun fine => ?_
      split
      · exact .pure
      · exact .bind .reportAll fun _ => .pure
  · exact .pure

private theorem checkKeptArg_indifferent {arg : Expr} :
    Indifferent s A (s.checkKeptArg ofThis owner arg) := by
  unfold checkKeptArg
  split
  · exact .pure
  refine .bind checkAsLambda_indifferent fun isLambda => ?_
  split
  · exact .pure
  split
  · exact .orError .speak
  · exact .error

private theorem checkKeptArgs_indifferent {pairs : List (VariableId × Expr)} :
    Indifferent s A (s.checkKeptArgs ofThis owner pairs) := by
  induction pairs with
  | nil => exact .pure
  | cons pair rest ih =>
    unfold checkKeptArgs
    refine .look fun v => ?_
    dsimp only
    split
    · exact .bind checkKeptArg_indifferent fun _ => ih
    · exact ih

private theorem checkCall_indifferent {e : Expr} : Indifferent s A (s.checkCall owner e) := by
  unfold checkCall
  split
  · exact .look fun _ => checkKeptArgs_indifferent
  · exact .pure

end Kept

/-- The rule on what is kept. -/
private theorem checkExtensions_indifferent : Indifferent s A s.checkExtensions := by
  refine .look fun fs => .bind (.forIn fun f _ => ?_) fun _ => .pure
  refine .look fun decl => .look fun nodes => .bind (.forIn fun e _ => ?_) fun _ => .pure
  exact .bind checkCall_indifferent fun _ => .pure

end Setting

-- ============================================================ every rule

namespace Rule

/-- Every rule is indifferent to what others have explained. -/
theorem run_indifferent (rule : Rule) : Indifferent s rule.explains (rule.run s) := by
  cases rule with
  | recordDecl => exact Setting.checkRecords_indifferent
  | varDecl => exact Setting.checkVariables_indifferent
  | rawPointerAssignment => exact Setting.checkAssignments_indifferent
  | returnValue => exact Setting.checkReturns_indifferent
  | mayExtend => exact Setting.checkExtensions_indifferent
  | determinism => exact Setting.checkDeterminism_indifferent

/-- Rules run one after the other, each under its own name. -/
theorem runAll_cons {rule : Rule} {rest : List Rule} {l : Ledger} {j : Journal} :
    runAll s (rule :: rest) ⟨l, j⟩ =
      (rule.run s ⟨l, j.setRule rule.name⟩ >>= fun end_ => runAll s rest end_.2) := rfl

/-- With nothing explained that it would explain, a rule finds what it finds alone. -/
theorem findings_eq_alone {rule : Rule} {l : Ledger} {j : Journal} {r : Run}
    (coherent : l.Coherent s) (fresh : ∀ a ∈ rule.explains, ∀ id, l.isExplained id a = false)
    (runs : rule.run s ⟨l, j.setRule rule.name⟩ = .ok (⟨⟩, r)) {alone : Run}
    (runsAlone : runAll s [rule] .start = .ok (⟨⟩, alone)) :
    r.journal.findings = j.findings ++ alone.journal.findings ∧ r.ledger.Coherent s
    ∧ ∀ a ∉ rule.explains, ∀ id, r.ledger.isExplained id a = l.isExplained id a := by
  have agree : l.Agree s rule.explains .empty := ⟨coherent, Ledger.coherent_empty, fresh⟩
  obtain ⟨after, after', remarks, rfl, run', agree', kept⟩ :=
    rule.run_indifferent l .empty agree _ (Journal.empty.setRule rule.name) ⟨⟩ r runs
  rw [Run.start, runAll_cons, run', ok_bind] at runsAlone
  cases runsAlone
  refine ⟨?_, agree'.left, kept⟩
  rw [Journal.reportAll_eq, Journal.reportAll_eq]
  rfl

/-- Rules that run one after the other find what each of them finds alone. -/
theorem runAll_findings {alone : Rule → Run}
    (runsAlone : ∀ rule, runAll s [rule] .start = .ok (⟨⟩, alone rule)) {rules : List Rule}
    (nodup : rules.Nodup) {l : Ledger} {j : Journal} {r : Run} (coherent : l.Coherent s)
    (fresh : ∀ rule ∈ rules, ∀ a ∈ rule.explains, ∀ id, l.isExplained id a = false)
    (runs : runAll s rules ⟨l, j⟩ = .ok (⟨⟩, r)) :
    r.journal.findings = j.findings ++ rules.flatMap fun rule => (alone rule).journal.findings := by
  induction rules generalizing l j with
  | nil =>
    cases runs
    rw [List.flatMap_nil, List.append_nil]
  | cons rule rest ih =>
    rw [runAll_cons] at runs
    obtain ⟨⟨⟨⟩, next⟩, runsRule, runsRest⟩ := bind_eq_ok.mp runs
    obtain ⟨new, nodupRest⟩ := List.nodup_cons.mp nodup
    obtain ⟨findings, coherent', kept⟩ :=
      findings_eq_alone coherent (fresh rule List.mem_cons_self) runsRule (runsAlone rule)
    have fresh' (other : Rule) (mem : other ∈ rest) (a : Aspect) (explains : a ∈ other.explains)
        (id : TypeId) : next.ledger.isExplained id a = false := by
      have differ : rule ≠ other := by
        rintro rfl
        exact new mem
      rw [kept a (explains_disjoint differ a explains) id]
      exact fresh other (List.mem_cons_of_mem _ mem) a explains id
    rw [ih nodupRest coherent' fresh' runsRest, findings, List.flatMap_cons, List.append_assoc]

-- ============================================================ the chosen rules

/-- What is chosen, as a filter. -/
private theorem selection_eq (chosen : List Rule) : selection chosen = all.filter (· ∈ chosen) := by
  unfold selection
  refine List.filter_congr fun rule _ => ?_
  rw [List.contains_eq_mem]

/-- No rule is chosen twice, as none is listed twice. -/
private theorem selection_nodup (chosen : List Rule) : (selection chosen).Nodup :=
  List.Nodup.filter _ (by decide)

/-- A rule that is chosen alone. -/
private theorem selection_singleton (rule : Rule) : selection [rule] = [rule] := by
  cases rule <;> rfl

/-- The place of a rule in the order in which rules run. -/
def rank (rule : Rule) : Nat := all.idxOf rule

/-- The chosen rules sorted into the order in which rules run; of equal rules that then stand side
by side, the first is kept. -/
def sortedOnce (chosen : List Rule) : List Rule :=
  (chosen.mergeSort fun a b => a.rank ≤ b.rank).destutter (· ≠ ·)

/-- One rule runs before another. -/
def Before (rule other : Rule) : Prop := rule.rank < other.rank

instance : DecidableRel Before := fun rule other =>
  inferInstanceAs (Decidable (rule.rank < other.rank))

instance : Trans Before Before Before := ⟨Nat.lt_trans⟩

/-- Different rules have different places. -/
theorem rank_injective : Function.Injective rank := by
  intro a b
  cases a <;> cases b <;> decide

/-- A list in which ranks rise has no repetitions. -/
private theorem nodup_of_pairwise_before {l : List Rule} (rises : l.Pairwise Before) :
    l.Nodup := by
  apply rises.imp
  intro rule other before same
  rw [Before, same] at before
  exact Nat.lt_irrefl _ before

/-- Dropping repetitions that stand side by side loses no rule. -/
private theorem mem_destutter'_ne {l : List Rule} {first rule : Rule} :
    rule ∈ l.destutter' (· ≠ ·) first ↔ rule = first ∨ rule ∈ l := by
  induction l generalizing first with
  | nil => simp
  | cons next rest ih =>
    by_cases differ : first ≠ next
    · rw [List.destutter'_cons_pos _ differ, List.mem_cons, ih, List.mem_cons]
    · rw [List.destutter'_cons_neg _ differ, ih, List.mem_cons, not_not.mp differ]
      exact ⟨fun h => h.imp id .inr, fun h => h.elim .inl id⟩

/-- Neither the sorting nor the dropping of repetitions loses a rule. -/
theorem mem_sortedOnce {chosen : List Rule} {rule : Rule} :
    rule ∈ sortedOnce chosen ↔ rule ∈ chosen := by
  unfold sortedOnce
  rw [← (List.mergeSort_perm chosen fun a b => a.rank ≤ b.rank).mem_iff]
  cases chosen.mergeSort fun a b => a.rank ≤ b.rank with
  | nil => rfl
  | cons first rest => rw [List.destutter_cons', mem_destutter'_ne, List.mem_cons]

/-- Sorted by rank and without repetitions side by side, ranks rise from each rule to the next. -/
theorem sortedOnce_rises (chosen : List Rule) : (sortedOnce chosen).Pairwise Before := by
  have sorted : (chosen.mergeSort fun a b => a.rank ≤ b.rank).Pairwise fun a b =>
      decide (a.rank ≤ b.rank) = true := by
    apply List.pairwise_mergeSort
    · intro a b c
      simp only [decide_eq_true_eq]
      exact Nat.le_trans
    · intro a b
      simp only [Bool.or_eq_true, decide_eq_true_eq]
      exact Nat.le_total _ _
  -- neighbours that are left are in order and differ, so their ranks differ too
  have kept := (sorted.sublist (List.destutter_sublist (· ≠ ·) _)).isChain
  have differ := List.isChain_destutter (· ≠ ·) (chosen.mergeSort fun a b => a.rank ≤ b.rank)
  apply List.IsChain.pairwise
  rw [List.isChain_iff_getElem] at kept differ ⊢
  intro i inside
  have notBefore := of_decide_eq_true (kept i inside)
  exact Nat.lt_of_le_of_ne notBefore fun same => differ i inside (rank_injective same)

/-- Choosing rules by filtering the list of all rules is sorting them and dropping repetitions. -/
theorem selection_eq_sortedOnce (chosen : List Rule) : selection chosen = sortedOnce chosen := by
  have rises : (selection chosen).Pairwise Before := List.Pairwise.filter _ (by decide)
  have rises' := sortedOnce_rises chosen
  apply List.Perm.eq_of_pairwise _ rises rises'
  · rw [List.perm_ext_iff_of_nodup (selection_nodup chosen) (nodup_of_pairwise_before rises')]
    intro rule
    have listed : rule ∈ all := by cases rule <;> decide
    rw [mem_sortedOnce, selection_eq, List.mem_filter]
    simp [listed]
  · intro rule other _ _ before after
    exact absurd (Nat.lt_trans before after) (Nat.lt_irrefl _)

end Rule

namespace TranslationUnit

variable {u : TranslationUnit}

/-- A check that succeeds has run its rules. -/
theorem run_of_check {config : Config} {rules : List Rule} {journal : Journal}
    (isSetting : Setting.of u config = .ok s) (check : u.check config rules = .ok journal) :
    ∃ r, Rule.runAll s rules .start = .ok (⟨⟩, r) ∧ r.journal = journal := by
  unfold TranslationUnit.check at check
  rw [isSetting, ok_bind] at check
  obtain ⟨⟨⟨⟩, r⟩, runs, same⟩ := bind_eq_ok.mp check
  cases same
  exact ⟨r, runs, rfl⟩

/-- The rules that are chosen, in whatever order and however often, run sorted and each once, and
what they find is what each of them finds alone, rule after rule in the order in which rules are
listed. -/
theorem findings_eq_flatMap_alone (consistent : u.inconsistency? = none) (founded : u.Founded)
    (config : Config) :
    ∃ alone : Rule → Journal,
      (∀ rule, u.check config (config.rules (some [rule])) = .ok (alone rule))
      ∧ ∀ chosen, config.rules (some chosen) = Rule.sortedOnce chosen
        ∧ ∃ journal, u.check config (config.rules (some chosen)) = .ok journal
          ∧ journal.findings =
            (Rule.all.filter (· ∈ chosen)).flatMap fun rule => (alone rule).findings := by
  have c := inconsistency?_eq_none_iff.mp consistent
  obtain ⟨s, isSetting, -⟩ := (Setting.of_ends c config).answer
  have each (rule : Rule) : ∃ r, Rule.runAll s [rule] .start = .ok (⟨⟩, r)
      ∧ u.check config (config.rules (some [rule])) = .ok r.journal := by
    obtain ⟨journal, check⟩ : ∃ journal, u.check config [rule] = .ok journal :=
      c.exists_journal founded
    obtain ⟨r, runs, rfl⟩ := run_of_check isSetting check
    refine ⟨r, runs, ?_⟩
    show u.check config (Rule.selection [rule]) = _
    rw [Rule.selection_singleton]
    exact check
  choose alone runsAlone checkAlone using each
  refine ⟨fun rule => (alone rule).journal, checkAlone, fun chosen => ?_⟩
  obtain ⟨journal, check⟩ : ∃ journal, u.check config (Rule.selection chosen) = .ok journal :=
    c.exists_journal founded
  obtain ⟨r, runs, rfl⟩ := run_of_check isSetting check
  refine ⟨Rule.selection_eq_sortedOnce chosen, r.journal, check, ?_⟩
  rw [← Rule.selection_eq]
  exact Rule.runAll_findings runsAlone (Rule.selection_nodup chosen) Ledger.coherent_empty
    (fun _ _ _ _ _ => rfl) runs

/-- All rules together, chosen in reverse and one of them twice, run once each and find in the
widget what each finds alone, which is something for every rule. -/
theorem widget_findings_eq_flatMap_alone :
    widget.inconsistency? = none ∧ widget.Founded
    ∧ ∃ alone : Rule → Journal,
      (∀ rule, widget.check .default (Config.default.rules (some [rule])) = .ok (alone rule))
      ∧ Config.default.rules (some (.determinism :: Rule.all.reverse)) = Rule.all
      ∧ ∃ journal,
        widget.check .default
          (Config.default.rules (some (.determinism :: Rule.all.reverse))) = .ok journal
        ∧ journal.findings = (Rule.all.flatMap fun rule => (alone rule).findings)
        ∧ journal.findings.map (fun finding => (finding.rule, finding.message)) =
          [("record-decl", "unsafe naked_struct declaration"),
            ("record-decl", "member not allowed at naked struct"),
            ("var-decl", "(S1.3) raw pointer variable type must have initializer"),
            ("raw-pointer-assignment", "(S5.1) assignment of raw pointer may extend scope"),
            ("return", "(S5.1) return value may extend scope"),
            ("may-extend", "(S5.7) capture of 'this' unsafe to extend scope"),
            ("determinism", "(D2) variable type must have initializer"),
            ("determinism", "(D2) variable type must have initializer")] := by
  have consistent : widget.inconsistency? = none := by decide
  have founded := (inconsistency?_eq_none_iff.mp consistent).founded (by decide)
  obtain ⟨alone, checkAlone, together⟩ := findings_eq_flatMap_alone consistent founded .default
  obtain ⟨-, journal, check, findings⟩ := together (.determinism :: Rule.all.reverse)
  refine ⟨consistent, founded, alone, checkAlone, rfl, journal, check, findings.trans rfl, ?_⟩
  have found := congrArg (Except.map fun journal : Journal =>
    journal.findings.map fun finding => (finding.rule, finding.message)) check
  exact Except.ok.inj (found.symm.trans (by decide +kernel))

end TranslationUnit

end SafeDialect
