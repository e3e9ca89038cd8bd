/-
Findings come in groups.

A group is an error and the notes that belong to it, all of one rule. A rule adds groups to the
journal and nothing else, whatever has been explained before: a note is only ever made by a step
that has just made an error. The rule on records asks the very question again that had a bad answer,
and such a question is never answered without a remark; so each of its groups has a note.
-/
import SafeDialect.Proofs.Classifier.Complaints
import SafeDialect.Proofs.Lifetime.InternalErrors
import SafeDialect.Proofs.Rules.Variables

namespace SafeDialect

-- ============================================================ groups

/-- Findings in groups: an error, and the notes that belong to it. An error of the rule on records
has at least one. -/
inductive Grouped : List Finding → Prop where
  | nil : Grouped []
  | group {e : Finding} {notes rest : List Finding} (isError : e.severity = .error)
      (areNotes : ∀ n ∈ notes, n.severity = .note ∧ n.rule = e.rule)
      (explained : e.rule = Rule.recordDecl.name → notes ≠ []) (others : Grouped rest) :
      Grouped (e :: notes ++ rest)

namespace Grouped

variable {findings more before after : List Finding} {f : Finding}

/-- Groups one after the other are groups. -/
theorem append (grouped : Grouped findings) (grouped' : Grouped more) :
    Grouped (findings ++ more) := by
  induction grouped with
  | nil => exact grouped'
  | group isError areNotes explained _ ih =>
    rw [List.append_assoc]
    exact .group isError areNotes explained ih

/-- In groups there are errors and notes only. -/
private theorem severity_ne_warning (grouped : Grouped findings) (mem : f ∈ findings) :
    f.severity ≠ .warning := by
  induction grouped with
  | nil => cases mem
  | group isError areNotes _ _ ih =>
    rcases List.mem_append.mp mem with mem | mem
    · rcases List.mem_cons.mp mem with rfl | mem
      · rw [isError]
        nofun
      · rw [(areNotes f mem).1]
        nofun
    · exact ih mem

/-- A finding inside groups, seen from the first of them: it is the error, or one of its notes, or
it comes later. -/
theorem split_cases {e : Finding} {notes rest : List Finding}
    (split : e :: notes ++ rest = before ++ f :: after) :
    (before = [] ∧ f = e ∧ after = notes ++ rest)
    ∨ (∃ earlier later, before = e :: earlier ∧ notes = earlier ++ f :: later)
    ∨ ∃ earlier, before = e :: notes ++ earlier ∧ rest = earlier ++ f :: after := by
  rcases List.append_eq_append_iff.mp split with ⟨earlier, same, ofRest⟩ | ⟨between, same, ofRest⟩
  · exact .inr (.inr ⟨earlier, same, ofRest⟩)
  · cases between with
    | nil =>
      rw [List.append_nil] at same
      exact .inr (.inr ⟨[], by rw [List.append_nil, same], ofRest.symm⟩)
    | cons head later =>
      cases ofRest
      cases before with
      | nil =>
        cases same
        exact .inl ⟨rfl, rfl, rfl⟩
      | cons first earlier =>
        cases same
        exact .inr (.inl ⟨earlier, later, rfl, rfl⟩)

/-- Before a note there are only notes, back to an error of the same rule. -/
theorem error_before_note (grouped : Grouped findings) (split : findings = before ++ f :: after)
    (isNote : f.severity = .note) :
    ∃ earlier e notes, before = earlier ++ e :: notes ∧ e.severity = .error ∧ e.rule = f.rule
      ∧ ∀ n ∈ notes, n.severity = .note := by
  induction grouped generalizing before with
  | nil => simp at split
  | @group e notes rest isError areNotes _ _ ih =>
    rcases split_cases split with ⟨-, rfl, -⟩ | ⟨earlier, later, rfl, rfl⟩ | ⟨earlier, rfl, ofRest⟩
    · rw [isError] at isNote
      cases isNote
    · have sameRule := (areNotes f (by simp)).2
      refine ⟨[], e, earlier, rfl, isError, sameRule.symm, fun n mem => ?_⟩
      exact (areNotes n (by simp [mem])).1
    · obtain ⟨between, e', notes', rfl, found⟩ := ih ofRest
      exact ⟨e :: notes ++ between, e', notes', by rw [List.append_assoc], found⟩

/-- Right after an error of the rule on records there is a note of the same rule. -/
theorem note_after_error (grouped : Grouped findings) (split : findings = before ++ f :: after)
    (isError : f.severity = .error) (ofRecords : f.rule = Rule.recordDecl.name) :
    ∃ note later, after = note :: later ∧ note.severity = .note ∧ note.rule = f.rule := by
  induction grouped generalizing before with
  | nil => simp at split
  | @group e notes rest _ areNotes explained _ ih =>
    rcases split_cases split with ⟨-, rfl, rfl⟩ | ⟨earlier, later, rfl, rfl⟩ |
      ⟨earlier, rfl, ofRest⟩
    · obtain ⟨note, later, rfl⟩ := List.exists_cons_of_ne_nil (explained ofRecords)
      exact ⟨note, later ++ rest, rfl, areNotes note List.mem_cons_self⟩
    · rw [(areNotes f (by simp)).1] at isError
      cases isError
    · exact ih ofRest

end Grouped

-- ============================================================ what a rule adds

/-- Remarks that a rule makes in groups. -/
def Rule.Groups (rule : Rule) (said : List Remark) : Prop :=
  Grouped (said.map (·.under rule.name))

namespace Rule

variable {rule : Rule} {said more notes : List Remark} {e : Remark}

/-- Rules have names of their own. -/
private theorem eq_recordDecl_of_name (same : rule.name = recordDecl.name) :
    rule = .recordDecl := by
  cases rule with
  | recordDecl => rfl
  | _ => exact absurd same (by decide)

/-- What is said in groups by two steps is said in groups. -/
theorem Groups.append (groups : rule.Groups said) (groups' : rule.Groups more) :
    rule.Groups (said ++ more) := by
  unfold Groups
  rw [List.map_append]
  exact Grouped.append groups groups'

/-- An error with the notes after it is a group, and under the rule on records it needs a note. -/
private theorem groups_cons (isError : e.severity = .error)
    (areNotes : ∀ r ∈ notes, r.severity = .note)
    (explained : rule = .recordDecl → notes ≠ []) : rule.Groups (e :: notes) := by
  have one : Grouped (e.under rule.name :: notes.map (·.under rule.name) ++ []) := by
    refine .group isError (fun n mem => ?_) (fun same empty => ?_) .nil
    · obtain ⟨r, memR, rfl⟩ := List.mem_map.mp mem
      exact ⟨areNotes r memR, rfl⟩
    · exact explained (eq_recordDecl_of_name same) (List.map_eq_nil_iff.mp empty)
  rwa [List.append_nil] at one

end Rule

/-- A step that adds groups of a rule to the journal. -/
def Orderly {α : Type} (s : Setting) (rule : Rule) (m : Check α) : Prop :=
  Reports s m fun _ => rule.Groups

namespace Orderly

variable {s : Setting} {rule : Rule} {α β : Type} {m : Check α}

/-- Nothing said is no group. -/
theorem pure {a : α} : Orderly s rule (Pure.pure a : Check α) := Reports.pure .nil

/-- Groups of the first step, then those of the second. -/
theorem bind {f : α → Check β} (first : Orderly s rule m) (next : ∀ a, Orderly s rule (f a)) :
    Orderly s rule (m >>= f) :=
  Reports.bind first fun a _ groups => .mono (next a) fun _ _ groups' => groups.append groups'

/-- Looking something up says nothing. -/
theorem look {x : Result α} {f : α → Check β} (next : ∀ a, x = .ok a → Orderly s rule (f a)) :
    Orderly s rule (liftM x >>= f) :=
  Reports.look next

/-- A question that says nothing may come first. -/
theorem ask {f : α → Check β} {holds : α → Prop}
    (first : Reports s m fun a said => said = [] ∧ holds a)
    (next : ∀ a, holds a → Orderly s rule (f a)) : Orderly s rule (m >>= f) :=
  Reports.ask first next

/-- Groups of each turn, one after the other. -/
theorem forIn {l : List α} {f : α → PUnit → Check (ForInStep PUnit)} {init : PUnit}
    (each : ∀ a ∈ l, ∀ b, Orderly s rule (f a b)) : Orderly s rule (ForIn.forIn l init f) := by
  induction l generalizing init with
  | nil => exact pure
  | cons head tail ih =>
    rw [List.forIn_cons]
    refine bind (each head List.mem_cons_self init) fun pass => ?_
    cases pass with
    | done b => exact pure
    | yield b => exact ih fun a mem => each a (List.mem_cons_of_mem _ mem)

-- ============================================================ questions

/-- What is asked quietly says nothing. -/
theorem quiet {act : Inspect α} : Orderly s rule (Check.quiet act) := by
  refine Reports.mono .quiet fun _ said known => ?_
  rw [known.1]
  exact .nil

/-- A verdict says nothing. -/
theorem verdict {a : Aspect} {t : QualifiedType} : Orderly s rule (Check.verdict s a t) := by
  refine Reports.mono .verdict fun _ said known => ?_
  rw [known.1]
  exact .nil

-- ============================================================ errors

variable {location : Location} {message : String}

section Others

variable (other : rule ≠ .recordDecl)
include other

/-- An error without reasons is a group of its own, except under the rule on records. -/
theorem error : Orderly s rule (Check.error location message) := by
  refine Reports.mono .error fun _ said same => ?_
  rw [same]
  exact Rule.groups_cons rfl nofun fun isRecords => absurd isRecords other

/-- An error may follow what was said in groups. -/
theorem orError {passes : α → Bool} (h : Orderly s rule m) :
    Orderly s rule (do
      if passes (← m) then return ⟨⟩
      else Check.error location message) := by
  refine bind h fun a => ?_
  split
  · exact pure
  · exact error other

/-- An error with reasons from the ledger. -/
theorem errorExplained {a : Aspect} {t : QualifiedType} :
    Orderly s rule (do Check.error location message; Check.explain s a t) := by
  refine Reports.bind .error fun _ said same => .mono .explain fun _ notes areNotes => ?_
  rw [same]
  exact Rule.groups_cons rfl areNotes fun isRecords => absurd isRecords other

/-- An error with reasons from an inspection. -/
theorem errorExplainedBy {act : Inspect α} (scripted : Scripted act) :
    Orderly s rule (Check.errorExplainedBy location message act) := by
  refine Reports.mono (.errorExplainedBy scripted) fun _ said explained => ?_
  obtain ⟨notes, rfl, areNotes⟩ := explained
  exact Rule.groups_cons rfl areNotes fun isRecords => absurd isRecords other

/-- A question about lifetimes makes an internal error or says nothing. -/
theorem speak {act : Speak α} {bad : α → Prop} (blames : Blames act bad) :
    Orderly s rule (Check.speak act) := by
  refine Reports.mono .speak fun a said known => ?_
  obtain ⟨voice, run, rfl⟩ := known
  have ends := blames (.speaking .note)
  unfold Runs at ends
  rw [run] at ends
  rcases ends with same | ⟨-, location, same⟩
  · rw [show voice = _ from same]
    exact .nil
  · rw [show voice = _ from same]
    exact Rule.groups_cons rfl nofun fun isRecords => absurd isRecords other

end Others

/-- A question that follows a script has one answer, whatever the voice. -/
theorem answer_unique {act : Inspect α} (scripted : Scripted act) {voice voice' : Voice} {a a' : α}
    (returns : act.Returns voice a) (returns' : act.Returns voice' a') : a = a' := by
  obtain ⟨script, same⟩ := scripted [] false
  obtain ⟨session, run⟩ := returns
  obtain ⟨session', run'⟩ := returns'
  rw [show act.run (.start voice) = _ from same voice] at run
  rw [show act.run (.start voice') = _ from same voice'] at run'
  cases script with
  | error fault => cases run
  | ok k =>
    cases run
    cases run'
    rfl

section Complained

variable {act : Inspect α} {good : α → Prop} (scripted : Scripted act)
  (complains : Complains [] false act good)
include scripted complains

/-- A question that had a bad answer, asked again with a voice, comes with a note. -/
theorem errorComplained {a : α} (returns : act.Returns .silent a) (bad : ¬ good a) :
    Orderly s rule (Check.errorExplainedBy location message act) := by
  refine Reports.look fun ⟨a', session⟩ spoken => .mono .reportAll fun _ said same => ?_
  subst same
  obtain rfl : a = a' := answer_unique scripted returns ⟨session, spoken⟩
  have ends := complains ((Voice.speaking .error).say location message)
  unfold Runs at ends
  rw [show act ⟨[], false, _⟩ = _ from spoken] at ends
  obtain ⟨lines, same, told⟩ := ends
  have said : session.voice.said =
      ⟨location, message, .error⟩ :: lines.map fun line => ⟨line.1, line.2, .note⟩ := by
    rw [show session = _ from same]
    show (Voice.sayAll ⟨some .note, _⟩ lines).said = _
    rw [Voice.sayAll_of_note]
    rfl
  rw [said]
  refine Rule.groups_cons rfl (fun r mem => ?_) fun _ empty => ?_
  · obtain ⟨line, -, rfl⟩ := List.mem_map.mp mem
    rfl
  · exact told.resolve_left bad (List.map_eq_nil_iff.mp empty)

end Complained

/-- What is rejected after a complaint has a reason to give. -/
private theorem passesOrComplained {act : Inspect Bool} (scripted : Scripted act)
    (complains : Complains [] false act (· = true)) : Orderly s rule (do
      if ← Check.quiet act then return ⟨⟩
      else Check.errorExplainedBy location message act) := by
  refine ask .quiet fun answer returns => ?_
  split
  · exact pure
  · next bad => exact errorComplained scripted complains returns bad

end Orderly

-- ============================================================ every rule

namespace Setting

open Check

variable {s : Setting} {rule : Rule}

/-- Whatever a record is tagged as, its rejection comes with a reason. -/
private theorem checkRecord_orderly (c : s.unit.Consistent) {id : RecordId} {r : RecordDecl}
    (look : s.unit.record id = .ok r) (isDefined : r.isDefined = true) :
    Orderly s rule (s.checkRecord id) := by
  have known : s.inspector.setting.definedRecord id = .ok (some id) := by
    show s.definedRecord id = _
    rw [definedRecord, look, ok_bind, if_pos isDefined]
    rfl
  have judges (a : Aspect) (t : QualifiedType) : Scripted (s.inspector.judge a t) :=
    Inspector.judgeWithin_scripted _ _ a t
  unfold checkRecord
  rw [look, Runs.lift_ok_bind]
  dsimp only
  split
  · exact .passesOrComplained (Inspector.nakedRecord_scripted judges)
      (Inspector.nakedRecord_complains c (Inspector.judge_complains c .nil) known)
  · have safe (location : Location) (message : String) : Orderly s rule (do
        if ← quiet (s.inspector.safeRecord s.inspector.judge id) then return ⟨⟩
        else
          errorExplainedBy location message (s.inspector.safeRecord s.inspector.judge id)) :=
      .passesOrComplained (Inspector.safeRecord_scripted judges)
        (Inspector.safeRecord_complains c known)
    split
    · next tagged =>
      refine .ask .quiet fun verdict returns => ?_
      split
      · exact safe _ _
      · next bad =>
        refine .bind (.errorComplained (Inspector.deepConstRecord_scripted judges)
          (Inspector.deepConstRecord_complains c known look tagged) returns bad) fun _ => safe _ _
    · exact safe _ _

private theorem checkRecords_orderly (c : s.unit.Consistent) : Orderly s rule s.checkRecords := by
  refine .look fun ids listed => .bind (.forIn fun id mem _ => ?_) fun _ => .pure
  refine .look fun r look => ?_
  have isDefined : r.isDefined = true := by
    have passed := eq_of_mem_filterM listed mem
    rw [look, ok_bind] at passed
    split at passed
    · assumption
    · cases passed
  split
  · exact .pure
  · exact .bind (checkRecord_orderly c look isDefined) fun _ => .pure

section Others

variable (other : rule ≠ .recordDecl)
include other

-- ============================================================ variables

section Variables

variable {v : VariableDecl} {t : QualifiedType}

private theorem checkReferenceInit_orderly : Orderly s rule (checkReferenceInit v) := by
  unfold checkReferenceInit
  split
  · exact .bind (.error other) fun _ => .pure
  · split
    · exact .bind (.error other) fun _ => .pure
    · exact .pure

private theorem checkPointerVariable_orderly : Orderly s rule (s.checkPointerVariable v t) := by
  unfold checkPointerVariable
  split
  · exact .error other
  refine .bind .verdict fun verdict => ?_
  split
  · exact .error other
  split
  · exact .error other
  · exact .pure

/-- Each way to reject a variable says one error and then its reasons. -/
private theorem checkStackVariable_orderly : Orderly s rule (s.checkStackVariable v t) := by
  refine .bind .verdict fun nullable => ?_
  split
  · split
    · exact .pure
    · exact .errorExplained other
  refine .bind .verdict fun naked => ?_
  split
  · split
    · exact .errorExplained other
    split
    · exact .error other
    · exact .pure
  refine .look fun isLambda _ => ?_
  split
  · split
    · exact .error other
    · exact .pure
  · exact .errorExplained other

private theorem checkUnsafeVariable_orderly : Orderly s rule (s.checkUnsafeVariable v t) := by
  refine .look fun shape _ => ?_
  split
  · exact .orError other .verdict
  refine .look fun isFunction _ => ?_
  split
  · exact .pure
  refine .look fun isAwaitable _ => ?_
  split
  · exact .pure
  split
  · exact checkPointerVariable_orderly other
  · exact checkStackVariable_orderly other

private theorem checkVariableType_orderly : Orderly s rule (s.checkVariableType v t) := by
  refine .look fun union? _ => ?_
  split
  · refine .bind .quiet fun answer => ?_
    split
    · exact .pure
    · exact .errorExplainedBy other Inspector.unionRecord_scripted
  refine .bind .verdict fun deepConst => ?_
  split
  · exact .errorExplained other
  refine .bind .verdict fun safe => ?_
  split
  · exact .pure
  · exact checkUnsafeVariable_orderly other

/-- What is said of one variable is said in groups. -/
private theorem checkVariable_orderly {id : VariableId} : Orderly s rule (s.checkVariable id) := by
  refine .look fun v _ => .look fun isExempt _ => ?_
  split
  · exact .pure
  refine .look fun c _ => ?_
  dsimp only
  have judged : Orderly s rule (do s.checkVariableType v (← s.judgedType c)) :=
    .look fun _ _ => checkVariableType_orderly other
  refine .look fun isReference _ => ?_
  split
  · refine .bind (checkReferenceInit_orderly other) fun passes => ?_
    split
    · exact judged
    · exact .pure
  · exact judged

private theorem checkVariables_orderly : Orderly s rule s.checkVariables :=
  .look fun _ _ => .bind (.forIn fun _ _ _ => .bind (checkVariable_orderly other) fun _ => .pure)
    fun _ => .pure

/-- And so is what is said of its determinism. -/
private theorem checkDeterminismOf_orderly {id : VariableId} :
    Orderly s rule (s.checkDeterminismOf id) := by
  refine .look fun v _ => .look fun needs _ => ?_
  split
  · refine .look fun c _ => .bind .verdict fun verdict => ?_
    split
    · exact .pure
    refine .look fun shape _ => ?_
    split
    · exact .errorExplained other
    split
    · exact .error other
    · exact .pure
  · exact .pure

private theorem checkDeterminism_orderly : Orderly s rule s.checkDeterminism :=
  .look fun _ _ => .bind (.forIn fun _ _ _ => .bind (checkDeterminismOf_orderly other)
    fun _ => .pure) fun _ => .pure

end Variables

-- ============================================================ flows

/-- What is said of one assignment is said in groups. -/
private theorem checkAssignment_orderly {e : Expr} : Orderly s rule (s.checkAssignment e) := by
  unfold checkAssignment
  split
  · refine .look fun isPointer _ => ?_
    split
    · exact .orError other (.speak other flowsTo_blames)
    · exact .pure
  · refine .look fun isAssignment _ => ?_
    split
    · refine .bind .verdict fun verdict => ?_
      split
      · exact .orError other (.speak other flowsTo_blames)
      · exact .pure
    · exact .pure
  · exact .pure

private theorem checkAssignments_orderly : Orderly s rule s.checkAssignments := by
  refine .look fun fs _ => .bind (.forIn fun f _ _ => ?_) fun _ => .pure
  refine .look fun nodes _ => .bind (.forIn fun e _ _ => ?_) fun _ => .pure
  exact .bind (checkAssignment_orderly other) fun _ => .pure

private theorem checkReturn_orderly {id : StmtId} : Orderly s rule (s.checkReturn id) := by
  refine .look fun stmt _ => ?_
  split
  · exact .orError other (.speak other mayFlow_blames)
  · exact .pure

private theorem checkReturns_orderly : Orderly s rule s.checkReturns := by
  refine .look fun fs _ => .bind (.forIn fun f _ _ => ?_) fun _ => .pure
  refine .look fun decl _ => .bind .verdict fun verdict => ?_
  split
  · refine .look fun stmts _ => .bind (.forIn fun id _ _ => ?_) fun _ => .pure
    exact .bind (checkReturn_orderly other) fun _ => .pure
  · exact .pure

-- ============================================================ arguments that are kept

section Kept

variable {ofThis : Bool} {owner : Option RecordId}

omit other in
/-- Finding out what is wrong with a capture says nothing. -/
theorem captureComplaint_silent {kind : CaptureKind} :
    Reports s (s.captureComplaint ofThis owner kind) fun _ said => said = [] := by
  cases kind with
  | thisPointer =>
    cases owner with
    | none => exact .pure rfl
    | some id =>
      cases ofThis with
      | true => exact .pure rfl
      | false => exact .look fun _ _ => .pure rfl
  | byCopy id =>
    refine .look fun v _ => .ask .verdict fun verdict _ => ?_
    split
    · exact .pure rfl
    · exact .pure rfl
  | thisCopy | byReference | array => exact .pure rfl

omit other in
/-- One error, and only if not every capture may be kept. -/
theorem checkCaptures_reports {captures : List Capture} :
    Reports s (s.checkCaptures ofThis owner captures) fun fine said =>
      (fine = true ∧ said = [])
      ∨ (fine = false ∧ ∃ location message, said = [⟨location, message, .error⟩]) := by
  induction captures with
  | nil => exact .pure (.inl ⟨rfl, rfl⟩)
  | cons capture rest ih =>
    unfold checkCaptures
    refine .bind captureComplaint_silent fun complaint said silent => ?_
    subst silent
    cases complaint with
    | some complaint =>
      refine .bind .error fun _ said same => .pure (.inr ⟨rfl, capture.location, complaint, ?_⟩)
      rw [same]
      rfl
    | none => exact ih

/-- The note on where a lambda is used comes right after the error about its capture. -/
theorem checkAsLambda_orderly {arg : Expr} :
    Orderly s rule (s.checkAsLambda ofThis owner arg) := by
  have alone (location : Location) (message : String) :
      rule.Groups [⟨location, message, .error⟩] :=
    Rule.groups_cons rfl nofun fun isRecords => absurd isRecords other
  unfold checkAsLambda
  split
  · refine Reports.bind checkCaptures_reports fun fine said known => .pure ?_
    rw [List.append_nil]
    rcases known with ⟨-, rfl⟩ | ⟨-, location, message, rfl⟩
    · exact .nil
    · exact alone location message
  · refine .look fun v _ => ?_
    split
    · exact .pure
    · refine Reports.bind checkCaptures_reports fun fine said known => ?_
      rcases known with ⟨rfl, rfl⟩ | ⟨rfl, location, message, rfl⟩
      · exact .pure .nil
      · refine .bind .reportAll fun _ noted same => .pure ?_
        subst same
        refine Rule.groups_cons rfl (fun r mem => ?_) fun _ => List.cons_ne_nil _ _
        cases List.mem_singleton.mp mem
        rfl
  · exact .pure

/-- A kept argument is complained about in groups: a lambda by its captures, another one by
itself. -/
private theorem checkKeptArg_orderly {arg : Expr} :
    Orderly s rule (s.checkKeptArg ofThis owner arg) := by
  unfold checkKeptArg
  split
  · exact .pure
  refine .bind (checkAsLambda_orderly other) fun isLambda => ?_
  split
  · exact .pure
  split
  · exact .orError other (.speak other mayFlow_blames)
  · exact .error other

private theorem checkKeptArgs_orderly {pairs : List (VariableId × Expr)} :
    Orderly s rule (s.checkKeptArgs ofThis owner pairs) := by
  induction pairs with
  | nil => exact .pure
  | cons pair rest ih =>
    unfold checkKeptArgs
    refine .look fun v _ => ?_
    dsimp only
    split
    · exact .bind (checkKeptArg_orderly other) fun _ => ih
    · exact ih

end Kept

private theorem checkExtensions_orderly : Orderly s rule s.checkExtensions := by
  refine .look fun fs _ => .bind (.forIn fun f _ _ => ?_) fun _ => .pure
  refine .look fun decl _ => .look fun nodes _ => .bind (.forIn fun e _ _ => ?_) fun _ => .pure
  refine .bind ?_ fun _ => .pure
  unfold checkCall
  split
  · exact .look fun _ _ => checkKeptArgs_orderly other
  · exact .pure

end Others

end Setting

namespace Rule

variable {s : Setting} (c : s.unit.Consistent)
include c

/-- Every rule says what it says in groups. -/
private theorem run_orderly (rule : Rule) : Orderly s rule (rule.run s) := by
  cases rule with
  | recordDecl => exact Setting.checkRecords_orderly c
  | varDecl => exact Setting.checkVariables_orderly nofun
  | rawPointerAssignment => exact Setting.checkAssignments_orderly nofun
  | returnValue => exact Setting.checkReturns_orderly nofun
  | mayExtend => exact Setting.checkExtensions_orderly nofun
  | determinism => exact Setting.checkDeterminism_orderly nofun

/-- Rules that run one after the other add group after group. -/
theorem grouped_of_runAll {rules : List Rule} {l : Ledger} {j : Journal} {r : Run}
    (coherent : l.Coherent s) (grouped : Grouped j.findings)
    (runs : runAll s rules ⟨l, j⟩ = .ok (⟨⟩, r)) : Grouped r.journal.findings := by
  induction rules generalizing l j with
  | nil =>
    cases runs
    exact grouped
  | cons rule rest ih =>
    rw [runAll_cons] at runs
    obtain ⟨⟨⟨⟩, next⟩, runsRule, runsRest⟩ := bind_eq_ok.mp runs
    obtain ⟨after, said, rfl, coherent', groups⟩ :=
      rule.run_orderly c l (j.setRule rule.name) coherent ⟨⟩ next runsRule
    refine ih coherent' ?_ runsRest
    rw [Journal.reportAll_eq]
    exact grouped.append groups

end Rule

namespace TranslationUnit

variable {u : TranslationUnit}

/-- A check finds errors and notes only. A note has only notes between itself and the error before
it, and that error is of the same rule. Each error of the rule on records has a note right after
it. -/
theorem findings_in_groups (consistent : u.inconsistency? = none) (founded : u.Founded)
    (config : Config) (rules : List Rule) :
    ∃ journal, u.check config rules = .ok journal
      ∧ (∀ f ∈ journal.findings, f.severity ≠ .warning)
      ∧ (∀ before note after, journal.findings = before ++ note :: after →
        note.severity = .note →
        ∃ earlier e notes, before = earlier ++ e :: notes ∧ e.severity = .error
          ∧ e.rule = note.rule ∧ ∀ n ∈ notes, n.severity = .note)
      ∧ ∀ before e after, journal.findings = before ++ e :: after →
        e.severity = .error → e.rule = Rule.recordDecl.name →
        ∃ note later, after = note :: later ∧ note.severity = .note ∧ note.rule = e.rule := by
  have c := inconsistency?_eq_none_iff.mp consistent
  obtain ⟨s, isSetting, rfl, -⟩ := (Setting.of_ends (π := fun _ => False) c config).answer
  obtain ⟨journal, check⟩ : ∃ journal, s.unit.check config rules = .ok journal :=
    c.exists_journal founded
  obtain ⟨r, runs, rfl⟩ := run_of_check isSetting check
  have grouped : Grouped r.journal.findings :=
    Rule.grouped_of_runAll c Ledger.coherent_empty .nil runs
  refine ⟨r.journal, check, fun f mem => grouped.severity_ne_warning mem, ?_, ?_⟩
  · exact fun before note after split isNote => grouped.error_before_note split isNote
  · exact fun before e after split isError ofRecords =>
      grouped.note_after_error split isError ofRecords

/-- All rules find something in the widget. First comes a naked struct with a pointer in it, with a
note that says so. -/
theorem widget_findings_in_groups :
    widget.inconsistency? = none ∧ widget.Founded
    ∧ ∃ journal e note later, widget.check .default Rule.all = .ok journal
      ∧ journal.findings = e :: note :: later
      ∧ (∀ f ∈ journal.findings, f.severity ≠ .warning)
      ∧ e.severity = .error ∧ e.rule = Rule.recordDecl.name
      ∧ note.severity = .note ∧ note.rule = e.rule
      ∧ ∃ earlier e' notes, [e] = earlier ++ e' :: notes ∧ e'.severity = .error
        ∧ e'.rule = note.rule := by
  have consistent : widget.inconsistency? = none := by decide
  have founded := (inconsistency?_eq_none_iff.mp consistent).founded (by decide)
  obtain ⟨journal, check, quiet, ofNotes, ofErrors⟩ :=
    findings_in_groups consistent founded .default Rule.all
  have first : (widget.check .default Rule.all).map
      (fun j => j.findings.head?.map fun f => (f.severity, f.rule)) =
        .ok (some (.error, Rule.recordDecl.name)) := by decide +kernel
  rw [check] at first
  obtain ⟨e, isFirst, same⟩ := Option.map_eq_some_iff.mp (Except.ok.inj first)
  obtain ⟨isError, ofRecords⟩ := Prod.mk.inj same
  obtain ⟨after, findings⟩ := List.head?_eq_some_iff.mp isFirst
  obtain ⟨note, later, rfl, isNote, sameRule⟩ := ofErrors [] e after findings isError ofRecords
  obtain ⟨earlier, e', notes, before, isError', sameRule', -⟩ :=
    ofNotes [e] note later findings isNote
  exact ⟨consistent, founded, journal, e, note, later, check, findings, quiet, isError, ofRecords,
    isNote, sameRule, earlier, e', notes, before, isError', sameRule'⟩

end TranslationUnit

end SafeDialect
