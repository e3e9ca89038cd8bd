/-
Checks do not see synonyms.

A check of a unit and one of the unit without synonyms run side by side: they keep the same ledger
and report findings at the same places, of the same severity and under the same rules, and what
they say differs at most in the spelling of a type.
-/
import SafeDialect.Proofs.Classifier.ByParams
import SafeDialect.Proofs.Classifier.Synonyms
import SafeDialect.Proofs.Lifetime.Synonyms
import SafeDialect.Proofs.Rules.Checker
import SafeDialect.Proofs.Rules.Independence

namespace SafeDialect

variable {s : Setting} {l l' : Ledger} {a : Aspect} {t t' : QualifiedType} {v : Verdict}

/-- Steps that run side by side do so from a fresh session. -/
theorem Inspector.Lockstep.fresh {i : Inspector} {α : Type} {act act' : Inspect α}
    (h : i.Lockstep act act') {voice : Voice} {b : α} {session : Session}
    (run : act.run (.start voice) = .ok (b, session)) :
    ∃ session', act'.run (.start voice) = .ok (b, session')
      ∧ List.Forall₂ (Remark.Alike i.setting.unit.Respelled) session.voice.said
        session'.voice.said := by
  have said : List.Forall₂ (Remark.Alike i.setting.unit.Respelled) voice.said voice.said :=
    List.forall₂_same.mpr fun m _ => ⟨rfl, rfl, .refl m.message⟩
  obtain ⟨session', run', alike⟩ :=
    h (.start voice) (.start voice) ⟨rfl, rfl, rfl, said⟩ b session run
  exact ⟨session', run', alike.voice.said⟩

-- ============================================================ the ledger

namespace Ledger

variable (c : s.unit.Consistent) (founded : s.unit.TypesFounded)
include c founded

/-- A classification gives the same verdict without synonyms, and remarks that are alike. -/
private theorem classify_desugared {voice : Voice} {said : List Remark}
    (answer : classify s voice a t = .ok (v, said)) :
    ∃ said', classify s.desugared voice a t = .ok (v, said')
      ∧ List.Forall₂ (Remark.Alike s.unit.Respelled) said said' := by
  obtain ⟨⟨_, session⟩, run, last⟩ := bind_eq_ok.mp answer
  cases last
  have asks := Inspector.askAlike_judge (i := ⟨s, false⟩) c founded
  obtain ⟨session', run', alike⟩ := (asks.same a t).fresh run
  exact ⟨session'.voice.said, bind_eq_ok.mpr ⟨_, run', rfl⟩, alike⟩

/-- So a ledger gives the same verdict, be it an old or a new one, and is left the same. -/
private theorem verdictOn_desugared (answer : verdictOn s l a t = .ok (v, l')) :
    verdictOn s.desugared l a t = .ok (v, l') := by
  unfold verdictOn at answer ⊢
  cases found : l.find? t.id a with
  | some e =>
    rw [found] at answer
    exact answer
  | none =>
    rw [found] at answer
    obtain ⟨⟨_, said⟩, classified, last⟩ := bind_eq_ok.mp answer
    cases last
    obtain ⟨said', classified', -⟩ := classify_desugared c founded classified
    exact bind_eq_ok.mpr ⟨_, classified', rfl⟩

variable (same : s.desugared.canonical t' = s.canonical t)
include same

/-- The type that is asked about may be spelled differently, as long as it has the same canonical
type. -/
private theorem verdict_desugared (answer : l.verdict s a t = .ok (v, l')) :
    l.verdict s.desugared a t' = .ok (v, l') := by
  obtain ⟨r, canonical, onR⟩ := bind_eq_ok.mp answer
  refine bind_eq_ok.mpr ⟨r, ?_, verdictOn_desugared c founded onR⟩
  rw [same, canonical]

/-- Reasons are given in both cases or in neither, and they are alike. -/
private theorem explain_desugared {said : List Remark} (answer : l.explain s a t = .ok (said, l')) :
    ∃ said', l.explain s.desugared a t' = .ok (said', l')
      ∧ List.Forall₂ (Remark.Alike s.unit.Respelled) said said' := by
  obtain ⟨r, canonical, onR⟩ := bind_eq_ok.mp answer
  obtain ⟨⟨w, mid⟩, given, last⟩ := bind_eq_ok.mp onR
  have canonical' : s.desugared.canonical t' = .ok r := same.trans canonical
  have given' := verdictOn_desugared c founded given
  unfold explain
  rw [canonical', ok_bind, given', ok_bind]
  dsimp only at last ⊢
  split at last
  · next calls =>
    obtain ⟨⟨_, remarks⟩, classified, end_⟩ := bind_eq_ok.mp last
    cases end_
    obtain ⟨said', classified', alike⟩ := classify_desugared c founded classified
    rw [if_pos calls]
    exact ⟨said', bind_eq_ok.mpr ⟨_, classified', rfl⟩, alike⟩
  · next calls =>
    cases last
    rw [if_neg calls]
    exact ⟨[], rfl, .nil⟩

end Ledger

-- ============================================================ steps of a run

/-- Findings that differ at most in their messages. -/
structure Finding.Alike (Q : String → String → Prop) (f f' : Finding) : Prop where
  location : f'.location = f.location
  severity : f'.severity = f.severity
  rule : f'.rule = f.rule
  message : Q f.message f'.message

/-- Journals with the same findings, up to messages, under the same rule. -/
structure Journal.Alike (Q : String → String → Prop) (j j' : Journal) : Prop where
  rule : j'.rule = j.rule
  findings : List.Forall₂ (Finding.Alike Q) j.findings j'.findings

/-- Runs with the same ledger, and journals that are alike. -/
structure Run.Alike (Q : String → String → Prop) (r r' : Run) : Prop where
  ledger : r'.ledger = r.ledger
  journal : r.journal.Alike Q r'.journal

/-- Remarks that are alike, put down in journals that are alike. -/
theorem Journal.Alike.reportAll {Q : String → String → Prop} {j j' : Journal}
    (alike : j.Alike Q j') {said said' : List Remark}
    (saidAlike : List.Forall₂ (Remark.Alike Q) said said') :
    (j.reportAll said).Alike Q (j'.reportAll said') := by
  rw [reportAll_eq, reportAll_eq]
  refine ⟨alike.rule, List.rel_append alike.findings ?_⟩
  rw [List.forall₂_map_left_iff, List.forall₂_map_right_iff]
  exact saidAlike.imp fun m m' same => ⟨same.location, same.severity, alike.rule, same.message⟩

/-- Findings that are alike are at the same places, of the same severity and under the same rule. -/
theorem Journal.Alike.places {Q : String → String → Prop} {j j' : Journal} (alike : j.Alike Q j') :
    (j'.findings.map fun f => (f.location, f.severity, f.rule)) =
      (j.findings.map fun f => (f.location, f.severity, f.rule)) := by
  have places : List.Forall₂ (· = ·) (j.findings.map fun f => (f.location, f.severity, f.rule))
      (j'.findings.map fun f => (f.location, f.severity, f.rule)) := by
    rw [List.forall₂_map_left_iff, List.forall₂_map_right_iff]
    refine alike.findings.imp fun f f' same => ?_
    rw [same.location, same.severity, same.rule]
  rw [List.forall₂_eq_eq_eq] at places
  exact places.symm

/-- And their messages differ at most in spellings. -/
private theorem Journal.Alike.messages {Q : String → String → Prop} {j j' : Journal}
    (alike : j.Alike Q j') :
    List.Forall₂ Q (j.findings.map (·.message)) (j'.findings.map (·.message)) := by
  rw [List.forall₂_map_left_iff, List.forall₂_map_right_iff]
  exact alike.findings.imp fun f f' same => same.message

/-- Two steps that keep up with each other, up to the spellings in what they report. -/
def Setting.Lockstep (s : Setting) {α : Type} (m m' : Check α) : Prop :=
  Tracks (Run.Alike s.unit.Respelled) m m'

namespace Setting

open Check

variable {location : Location} {message : String}

/-- Reports that are alike keep runs alike. -/
private theorem reportAll_lockstep {said said' : List Remark}
    (alike : List.Forall₂ (Remark.Alike s.unit.Respelled) said said') :
    s.Lockstep (reportAll said) (reportAll said') := by
  intro r r' alikeRuns _ _ run
  cases run
  exact ⟨_, rfl, alikeRuns.ledger, alikeRuns.journal.reportAll alike⟩

private theorem remark_lockstep {severity : Severity} :
    s.Lockstep (reportAll [⟨location, message, severity⟩])
      (reportAll [⟨location, message, severity⟩]) :=
  reportAll_lockstep (.cons ⟨rfl, rfl, .refl message⟩ .nil)

private theorem error_lockstep : s.Lockstep (error location message) (error location message) :=
  remark_lockstep

/-- An error on a condition that has nothing to do with types. -/
private theorem errorIf_lockstep {fails : Bool} :
    s.Lockstep (if fails then error location message else return ⟨⟩)
      (if fails then error location message else return ⟨⟩) := by
  split
  · exact error_lockstep
  · exact .pure

/-- The same question about lifetimes. -/
theorem speak_lockstep {α : Type} {act act' : Speak α} (same : act' = act) :
    s.Lockstep (speak act) (speak act') := by
  rw [same]
  refine .look rfl fun end_ _ => .bind (reportAll_lockstep ?_) fun _ => .pure
  exact List.forall₂_same.mpr fun m _ => ⟨rfl, rfl, .refl m.message⟩

section Questions

variable {α : Type} {act act' : Inspect α} {mode : Bool}
  (steps : (Inspector.mk s mode).Lockstep act act')
include steps

/-- A quiet question gets the same answer. -/
private theorem quiet_lockstep : s.Lockstep (quiet act) (quiet act') := by
  refine .lookBoth fun end_ run => ?_
  obtain ⟨session', run', -⟩ := steps.fresh run
  exact ⟨(end_.1, session'), run', .pure⟩

/-- An error with the reasons of an inspection, which are alike. -/
private theorem errorExplainedBy_lockstep :
    s.Lockstep (errorExplainedBy location message act)
      (errorExplainedBy location message act') := by
  refine .lookBoth fun end_ run => ?_
  obtain ⟨session', run', alike⟩ := steps.fresh run
  exact ⟨(end_.1, session'), run', reportAll_lockstep alike⟩

/-- A question that is asked quietly, and once more for the reasons if the answer is bad. -/
theorem passesOrError_lockstep {passes : α → Bool} :
    s.Lockstep
      (do
        if passes (← quiet act) then return ⟨⟩
        else errorExplainedBy location message act)
      (do
        if passes (← quiet act') then return ⟨⟩
        else errorExplainedBy location message act') := by
  refine .bind (quiet_lockstep steps) fun answer => ?_
  split
  · exact .pure
  · exact errorExplainedBy_lockstep steps

end Questions

section Verdicts

variable (c : s.unit.Consistent) (founded : s.unit.TypesFounded)
  (same : s.desugared.canonical t' = s.canonical t)
include c founded same

/-- Verdicts leave the same ledger in both runs. -/
private theorem verdict_lockstep : s.Lockstep (verdict s a t) (verdict s.desugared a t') := by
  rintro ⟨l, j⟩ ⟨l', j'⟩ alike b after run
  obtain rfl : l' = l := alike.ledger
  rw [Indifferent.verdict_run] at run
  obtain ⟨given, answer, same'⟩ := map_eq_ok.mp run
  cases same'
  refine ⟨⟨given.2, j'⟩, ?_, rfl, alike.journal⟩
  rw [Indifferent.verdict_run, Ledger.verdict_desugared c founded same answer]
  rfl

/-- So do reasons, and the journals stay alike. -/
private theorem explain_lockstep : s.Lockstep (explain s a t) (explain s.desugared a t') := by
  rintro ⟨l, j⟩ ⟨l', j'⟩ alike b after run
  obtain rfl : l' = l := alike.ledger
  rw [Indifferent.explain_run] at run
  obtain ⟨given, answer, same'⟩ := map_eq_ok.mp run
  cases same'
  obtain ⟨said', answer', alikeSaid⟩ := Ledger.explain_desugared c founded same answer
  refine ⟨⟨given.2, j'.reportAll said'⟩, ?_, rfl, alike.journal.reportAll alikeSaid⟩
  rw [Indifferent.explain_run, answer']
  rfl

/-- An error, explained from the ledger. -/
theorem errorExplained_lockstep :
    s.Lockstep (do error location message; explain s a t)
      (do error location message; explain s.desugared a t') :=
  .bind error_lockstep fun _ => explain_lockstep c founded same

end Verdicts

-- ============================================================ rules on declarations

/-- The records of user code are the same ones. -/
private theorem userRecords_desugared : s.desugared.userRecords = s.userRecords := by
  unfold userRecords
  rw [show s.desugared.unit.recordIds = _ from TranslationUnit.recordIds_retype]
  simp only [record_desugared, map_bind_result, RecordDecl.isDefined_retype, isUserCode_desugared]
  rfl

/-- And so are its functions. -/
private theorem userFunctions_desugared : s.desugared.userFunctions = s.userFunctions := by
  unfold userFunctions
  rw [show s.desugared.unit.functionIds = _ from TranslationUnit.functionIds_retype]
  simp only [function_desugared, map_bind_result, isUserCode_desugared]
  rfl

/-- And its variables. -/
private theorem userVariables_desugared : s.desugared.userVariables = s.userVariables := by
  unfold userVariables
  rw [show s.desugared.unit.variableIds = _ from TranslationUnit.variableIds_retype]
  simp only [variableDecl_desugared, function_desugared, map_bind_result, isUserCode_desugared]
  rfl

/-- Whether a reference has an initializer, and no temporary, is seen from its shape. -/
private theorem checkReferenceInit_lockstep (v : VariableDecl) :
    s.Lockstep (checkReferenceInit v) (checkReferenceInit (v.retype s.unit.types.desugar)) := by
  unfold checkReferenceInit VariableDecl.retype
  cases v.init with
  | none => exact .bind error_lockstep fun _ => .pure
  | some init =>
    simp only [Option.map_some, Expr.node_retype, Expr.location_retype]
    cases init.node with
    | withCleanups inner =>
      simp only [Node.retype]
      exact .bind error_lockstep fun _ => .pure
    | _ =>
      simp only [Node.retype]
      exact .pure

/-- Constructors and assignments are exempt with and without synonyms. -/
private theorem isExempt_desugared (v : VariableDecl) :
    s.desugared.isExempt (v.retype s.unit.types.desugar) = s.isExempt v := by
  unfold isExempt
  simp only [function_desugared, map_bind_result]
  rfl

private theorem needsDeterminism_desugared (v : VariableDecl) :
    s.desugared.needsDeterminism (v.retype s.unit.types.desugar) = s.needsDeterminism v := by
  unfold needsDeterminism
  simp only [function_desugared, map_bind_result]
  rfl

section Declarations

variable (c : s.unit.Consistent) (founded : s.unit.TypesFounded)
include c

/-- A variable is judged by a type that is canonical already, and those are the same. -/
private theorem judgedType_desugared (t : QualifiedType) :
    s.desugared.judgedType t = s.judgedType t := by
  unfold judgedType
  rw [shape_desugared c, map_bind_result]
  refine bind_congr fun shape => ?_
  rw [TypeShape.referent?_retype]
  cases shape.referent? with
  | none => rfl
  | some referent =>
    show (s.desugared.canonical (s.unit.types.desugar referent) >>= _) = _
    rw [canonical_desugar c]

include founded

/-- A record is classified in the same way, and the reasons are alike. -/
private theorem checkRecord_lockstep (id : RecordId) :
    s.Lockstep (s.checkRecord id) (s.desugared.checkRecord id) := by
  have asks := Inspector.askAlike_judge (i := s.inspector) c founded
  refine .lookAs (record_desugared id) fun r _ => ?_
  show s.Lockstep (if r.has .nakedStruct then _ else if r.has .deepConst then _ else _)
    (if r.has .nakedStruct then _ else if r.has .deepConst then _ else _)
  split
  · exact passesOrError_lockstep (Inspector.nakedRecord_lockstep c asks)
  have const : s.inspector.Lockstep (s.inspector.deepConstRecord s.inspector.judge id)
      (s.desugared.inspector.deepConstRecord s.desugared.inspector.judge id) :=
    Inspector.deepConstRecord_lockstep c founded asks
  have safe : s.inspector.Lockstep (s.inspector.safeRecord s.inspector.judge id)
      (s.desugared.inspector.safeRecord s.desugared.inspector.judge id) :=
    Inspector.safeRecord_lockstep c asks
  split
  · refine .bind (quiet_lockstep const) fun w => ?_
    split
    · exact passesOrError_lockstep safe
    · exact .bind (errorExplainedBy_lockstep const) fun _ => passesOrError_lockstep safe
  · exact passesOrError_lockstep safe

/-- The rule on records. -/
private theorem checkRecords_lockstep : s.Lockstep s.checkRecords s.desugared.checkRecords := by
  refine .look userRecords_desugared fun ids _ => ?_
  refine .bind (.forIn_same fun id _ _ => ?_) fun _ => .pure
  refine .lookAs (record_desugared id) fun r _ => ?_
  show s.Lockstep (if r.isLambda || r.isTemplate || r.isImplicitInstantiation then _ else _)
    (if r.isLambda || r.isTemplate || r.isImplicitInstantiation then _ else _)
  split
  · exact .pure
  · exact .bind (checkRecord_lockstep c founded id) fun _ => .pure

private theorem checkPointerVariable_lockstep (v : VariableDecl) (pointee : QualifiedType) :
    s.Lockstep (s.checkPointerVariable v pointee)
      (s.desugared.checkPointerVariable (v.retype s.unit.types.desugar)
        (s.unit.types.desugar pointee)) := by
  show s.Lockstep (if s.config.options.disableRawPointers then _ else _)
    (if s.config.options.disableRawPointers then _ else _)
  split
  · exact error_lockstep
  refine .bind (verdict_lockstep c founded (canonical_desugar c pointee)) fun w => ?_
  split
  · exact error_lockstep
  rw [VariableDecl.isNone_init_retype]
  exact errorIf_lockstep

/-- All kinds of types that may be on the stack are looked up by their canonical type. -/
private theorem checkStackVariable_lockstep (v : VariableDecl) (t : QualifiedType) :
    s.Lockstep (s.checkStackVariable v t)
      (s.desugared.checkStackVariable (v.retype s.unit.types.desugar) t) := by
  have same := canonical_desugared c t
  refine .bind (verdict_lockstep c founded same) fun nullable => ?_
  split
  · split
    · exact .pure
    · exact errorExplained_lockstep c founded same
  refine .bind (verdict_lockstep c founded same) fun naked => ?_
  split
  · split
    · exact errorExplained_lockstep c founded same
    · exact errorIf_lockstep
  refine .look (isLambda_desugared c t) fun isLambda _ => ?_
  split
  · exact errorIf_lockstep
  · exact errorExplained_lockstep c founded same

private theorem checkUnsafeVariable_lockstep (v : VariableDecl) (t : QualifiedType) :
    s.Lockstep (s.checkUnsafeVariable v t)
      (s.desugared.checkUnsafeVariable (v.retype s.unit.types.desugar) t) := by
  refine .lookAs (shape_desugared c t) fun shape _ => ?_
  rw [TypeShape.referent?_retype, TypeShape.pointee?_retype]
  cases shape.referent? with
  | some referent =>
    refine .bind (verdict_lockstep c founded (canonical_desugar c referent)) fun w => ?_
    split
    · exact .pure
    · exact error_lockstep
  | none =>
    refine .look (isStdFunction_desugared c t) fun isFunction _ => ?_
    split
    · exact .pure
    refine .look (isAwaitable_desugared c t) fun awaitable _ => ?_
    split
    · exact .pure
    cases shape.pointee? with
    | some pointee => exact checkPointerVariable_lockstep c founded v pointee
    | none => exact checkStackVariable_lockstep c founded v t

/-- A variable gets the same verdicts on the type that it is judged by. -/
private theorem checkVariableType_lockstep (v : VariableDecl) (t : QualifiedType) :
    s.Lockstep (s.checkVariableType v t)
      (s.desugared.checkVariableType (v.retype s.unit.types.desugar) t) := by
  have same := canonical_desugared c t
  refine .look (unionRecord_desugared c t) fun union? _ => ?_
  cases union? with
  | some id =>
    have steps : s.inspector.Lockstep (s.inspector.unionRecord id)
        (s.desugared.inspector.unionRecord id) :=
      Inspector.unionRecord_lockstep c
    exact passesOrError_lockstep steps
  | none =>
    refine .bind (verdict_lockstep c founded same) fun deepConst => ?_
    split
    · exact errorExplained_lockstep c founded same
    refine .bind (verdict_lockstep c founded same) fun safe => ?_
    split
    · exact .pure
    · exact checkUnsafeVariable_lockstep c founded v t

/-- A check of a variable, whose declared type may be a synonym. -/
private theorem checkVariable_lockstep (id : VariableId) :
    s.Lockstep (s.checkVariable id) (s.desugared.checkVariable id) := by
  refine .lookAs (variableDecl_desugared id) fun v _ => ?_
  refine .look (isExempt_desugared v) fun isExempt _ => ?_
  split
  · exact .pure
  refine .look (canonical_desugar c v.type) fun t _ => ?_
  refine .look (isReference_desugared c t) fun isReference _ => ?_
  have judged : s.Lockstep
      (do s.checkVariableType v (← s.judgedType t))
      (do s.desugared.checkVariableType (v.retype s.unit.types.desugar)
            (← s.desugared.judgedType t)) :=
    .look (judgedType_desugared c t) fun t _ => checkVariableType_lockstep c founded v t
  show s.Lockstep (if isReference && !v.isParamOrCatch then _ else _)
    (if isReference && !v.isParamOrCatch then _ else _)
  split
  · refine .bind (checkReferenceInit_lockstep v) fun passes => ?_
    cases passes with
    | true => exact judged
    | false => exact .pure
  · exact judged

/-- The rule on variables. -/
private theorem checkVariables_lockstep :
    s.Lockstep s.checkVariables s.desugared.checkVariables := by
  refine .look userVariables_desugared fun ids _ => ?_
  exact .each_same fun id _ => checkVariable_lockstep c founded id

private theorem checkDeterminismOf_lockstep (id : VariableId) :
    s.Lockstep (s.checkDeterminismOf id) (s.desugared.checkDeterminismOf id) := by
  refine .lookAs (variableDecl_desugared id) fun v _ => ?_
  refine .look (needsDeterminism_desugared v) fun needs _ => ?_
  split
  · refine .look (canonical_desugar c v.type) fun t _ => ?_
    have same := canonical_desugared c t
    refine .bind (verdict_lockstep c founded same) fun w => ?_
    split
    · exact .pure
    refine .lookAs (shape_desugared c t) fun shape _ => ?_
    rw [TypeShape.isRecord_retype, VariableDecl.isNone_init_retype]
    split
    · exact errorExplained_lockstep c founded same
    · exact errorIf_lockstep
  · exact .pure

/-- The rule on determinism. -/
private theorem checkDeterminism_lockstep :
    s.Lockstep s.checkDeterminism s.desugared.checkDeterminism := by
  refine .look userVariables_desugared fun ids _ => ?_
  exact .each_same fun id _ => checkDeterminismOf_lockstep c founded id

end Declarations

-- ============================================================ rules on flows

private theorem isAssignment_desugared (callee : Option FunctionId) :
    s.desugared.isAssignment callee = s.isAssignment callee := by
  cases callee with
  | none => rfl
  | some callee =>
    show (s.desugared.unit.function callee >>= _) = _
    rw [function_desugared, map_bind_result]
    rfl

section Flows

variable (c : s.unit.Consistent)
include c

/-- What flows where is seen from expressions, and not from spellings of their types. -/
private theorem flowsInto_lockstep (destination value : Expr) :
    s.Lockstep (s.flowsInto destination value)
      (s.desugared.flowsInto (destination.retype s.unit.types.desugar)
        (value.retype s.unit.types.desugar)) := by
  refine speak_lockstep ?_
  rw [show (destination.retype _).extent s.desugared.unit = _ from destination.extent_retype]
  exact bind_congr fun x => mayFlow_desugared c x value

omit c in
/-- A flow, and an error if there is none. -/
theorem orError_lockstep {m m' : Check Bool} {location : Location} {message : String}
    (steps : s.Lockstep m m') :
    s.Lockstep (do if ← m then return ⟨⟩ else error location message)
      (do if ← m' then return ⟨⟩ else error location message) := by
  refine .bind steps fun passes => ?_
  split
  · exact .pure
  · exact error_lockstep

variable (founded : s.unit.TypesFounded)
include founded

/-- An assignment is checked if it was, as pointers are told by canonical types. -/
private theorem checkAssignment_lockstep (e : Expr) :
    s.Lockstep (s.checkAssignment e)
      (s.desugared.checkAssignment (e.retype s.unit.types.desugar)) := by
  unfold checkAssignment
  simp only [Expr.node_retype, Expr.location_retype, Expr.type_retype]
  cases e.node with
  | binary op lhs rhs =>
    simp only [Node.retype]
    cases op with
    | assign =>
      refine .look (isRawPointer_member c e.type) fun isPointer _ => ?_
      split
      · exact orError_lockstep (flowsInto_lockstep c lhs rhs)
      · exact .pure
    | _ => exact .pure
  | operatorCall callee args =>
    simp only [Node.retype, Expr.retypeList_eq_map]
    -- only a call with two arguments is an assignment
    rcases args with _ | ⟨lhs, _ | ⟨rhs, _ | ⟨more, rest⟩⟩⟩
    · exact .pure
    · exact .pure
    · refine .look (isAssignment_desugared callee) fun assigns _ => ?_
      split
      · rw [Expr.type_retype]
        refine .bind (verdict_lockstep c founded (canonical_desugar c lhs.type)) fun w => ?_
        split
        · exact orError_lockstep (flowsInto_lockstep c lhs rhs)
        · exact .pure
      · exact .pure
    · exact .pure
  | _ =>
    simp only [Node.retype]
    exact .pure

/-- The rule on assignments. -/
private theorem checkAssignments_lockstep :
    s.Lockstep s.checkAssignments s.desugared.checkAssignments := by
  refine .look userFunctions_desugared fun fs _ => ?_
  refine .bind (.forIn_same fun f _ _ => ?_) fun _ => .pure
  refine .lookAs (TranslationUnit.bodyNodes_retype f) fun nodes _ => ?_
  exact .each fun e _ => checkAssignment_lockstep c founded e

omit founded in
/-- A result flows as it did. -/
theorem checkReturn_lockstep (id : StmtId) :
    s.Lockstep (s.checkReturn id) (s.desugared.checkReturn id) := by
  refine .lookAs (statement_desugared id) fun stmt _ => ?_
  rw [show (stmt.retype _).shape = stmt.shape.retype _ from rfl]
  cases stmt.shape with
  | giveBack value =>
    cases value with
    | none => exact .pure
    | some value =>
      simp only [StmtShape.retype, Option.map_some, Expr.location_retype]
      exact orError_lockstep (speak_lockstep (mayFlow_desugared c .parameter value))
  | _ => exact .pure

/-- The rule on results, by the canonical type of what is returned. -/
private theorem checkReturns_lockstep : s.Lockstep s.checkReturns s.desugared.checkReturns := by
  refine .look userFunctions_desugared fun fs _ => ?_
  refine .bind (.forIn_same fun f _ _ => ?_) fun _ => .pure
  refine .lookAs (function_desugared f) fun decl _ => ?_
  refine .bind (verdict_lockstep c founded (canonical_desugar c decl.ret)) fun w => ?_
  split
  · refine .look (TranslationUnit.bodyStmts_retype f) fun ids _ => ?_
    exact .each_same fun id _ => checkReturn_lockstep c id
  · exact .pure

end Flows

end Setting

-- ============================================================ arguments that are kept

/-- An expression is part of the object by its form. -/
private theorem Expr.isPartOfThis_retype {κ : QualifiedType → QualifiedType} (e : Expr)
    (isArrow : Bool) : (e.retype κ).isPartOfThis isArrow = e.isPartOfThis isArrow := by
  induction e using Expr.induction_on_parts generalizing isArrow with
  | step e ih =>
    obtain ⟨location, type, node⟩ := e
    cases node with
    | paren inner | withCleanups inner | materializeTemporary inner =>
      simp only [retype, Node.retype, isPartOfThis, Node.isPartOfThis]
      exact ih inner List.mem_cons_self isArrow
    | cast kind operand =>
      cases kind with
      | implicit =>
        simp only [retype, Node.retype, isPartOfThis, Node.isPartOfThis]
        exact ih operand List.mem_cons_self isArrow
      | _ => simp only [retype, Node.retype, isPartOfThis, Node.isPartOfThis]
    | member base name viaArrow =>
      simp only [retype, Node.retype, isPartOfThis, Node.isPartOfThis]
      rw [ih base List.mem_cons_self viaArrow]
    | _ => simp only [retype, Node.retype, isPartOfThis, Node.isPartOfThis]

private theorem Node.isFunctionName_retype {κ : QualifiedType → QualifiedType} (node : Node) :
    (node.retype κ).isFunctionName = node.isFunctionName := by
  cases node <;> simp only [retype, isFunctionName]

/-- A lambda is a lambda, whatever its type is called. -/
private theorem Node.lambda?_retype {κ : QualifiedType → QualifiedType} (node : Node) :
    (node.retype κ).lambda? = node.lambda? := by
  cases node <;> simp only [retype, lambda?]

/-- The name of a function, or its address, is told by its form. -/
private theorem Expr.isFunctionRef_retype {κ : QualifiedType → QualifiedType} (e : Expr) :
    (e.retype κ).isFunctionRef = e.isFunctionRef := by
  unfold isFunctionRef
  rw [unwrapped_retype, node_retype]
  cases e.unwrapped.node with
  | unary op operand =>
    cases op with
    | addressOf =>
      simp only [Node.retype, unwrapped_retype, node_retype, Node.isFunctionName_retype]
    | _ => simp only [Node.retype, Node.isFunctionName]
  | _ => simp only [Node.retype, Node.isFunctionName]

namespace Setting

open Check

section Kept

variable {ofThis : Bool} {owner : Option RecordId} (c : s.unit.Consistent)
  (founded : s.unit.TypesFounded)
include c founded

/-- A copied variable is judged by its canonical type, and other captures by their kind. -/
private theorem captureComplaint_lockstep (kind : CaptureKind) :
    s.Lockstep (s.captureComplaint ofThis owner kind)
      (s.desugared.captureComplaint ofThis owner kind) := by
  cases kind with
  | thisPointer =>
    cases owner with
    | none => exact .pure
    | some id =>
      cases ofThis with
      | true => exact .pure
      | false => exact .look (derivesFromNode_desugared c id) fun _ _ => .pure
  | byCopy id =>
    refine .lookAs (variableDecl_desugared id) fun v _ => ?_
    refine .bind (verdict_lockstep c founded (canonical_desugar c v.type)) fun w => ?_
    split
    · exact .pure
    · exact .pure
  | thisCopy | byReference | array => exact .pure

private theorem checkCaptures_lockstep (captures : List Capture) :
    s.Lockstep (s.checkCaptures ofThis owner captures)
      (s.desugared.checkCaptures ofThis owner captures) := by
  induction captures with
  | nil => exact .pure
  | cons capture rest ih =>
    refine .bind (captureComplaint_lockstep c founded capture.kind) fun complaint => ?_
    cases complaint with
    | some complaint => exact .bind error_lockstep fun _ => .pure
    | none => exact ih

/-- A lambda is found behind the same variable, with the same captures. -/
private theorem checkAsLambda_lockstep (arg : Expr) :
    s.Lockstep (s.checkAsLambda ofThis owner arg)
      (s.desugared.checkAsLambda ofThis owner (arg.retype s.unit.types.desugar)) := by
  unfold checkAsLambda
  rw [Expr.withoutTemporaries_retype, Expr.node_retype, Expr.location_retype]
  cases arg.withoutTemporaries.node with
  | lambda l =>
    simp only [Node.retype]
    exact .bind (checkCaptures_lockstep c founded l.captures) fun _ => .pure
  | declRef target =>
    simp only [Node.retype]
    cases target with
    | variableRef id =>
      refine .lookAs (variableDecl_desugared id) fun v _ => ?_
      have sameLambda : (v.retype s.unit.types.desugar).init.bind
          (·.withoutTemporaries.node.lambda?) =
            v.init.bind (·.withoutTemporaries.node.lambda?) := by
        rw [VariableDecl.retype, Option.bind_map]
        refine congrArg v.init.bind (funext fun init => ?_)
        rw [Function.comp_apply, Expr.withoutTemporaries_retype, Expr.node_retype,
          Node.lambda?_retype]
      rw [sameLambda]
      cases v.init.bind (·.withoutTemporaries.node.lambda?) with
      | none => exact .pure
      | some l =>
        refine .bind (checkCaptures_lockstep c founded l.captures) fun fine => ?_
        split
        · exact .pure
        · exact .bind remark_lockstep fun _ => .pure
    | functionRef id => exact .pure
    | fieldRef id index => exact .pure
  | _ =>
    simp only [Node.retype]
    exact .pure

/-- A kept argument gets the same complaint. -/
private theorem checkKeptArg_lockstep (arg : Expr) :
    s.Lockstep (s.checkKeptArg ofThis owner arg)
      (s.desugared.checkKeptArg ofThis owner (arg.retype s.unit.types.desugar)) := by
  unfold checkKeptArg
  rw [Expr.isFunctionRef_retype, Expr.location_retype]
  split
  · exact .pure
  refine .bind (checkAsLambda_lockstep c founded arg) fun isLambda => ?_
  split
  · exact .pure
  split
  · exact orError_lockstep (speak_lockstep (mayFlow_desugared c .object arg))
  · exact error_lockstep

private theorem checkKeptArgs_lockstep (pairs : List (VariableId × Expr)) :
    s.Lockstep (s.checkKeptArgs ofThis owner pairs)
      (s.desugared.checkKeptArgs ofThis owner
        (pairs.map (Prod.map id (·.retype s.unit.types.desugar)))) := by
  induction pairs with
  | nil => exact .pure
  | cons pair rest ih =>
    refine .lookAs (variableDecl_desugared pair.1) fun v _ => ?_
    show s.Lockstep (if v.has .mayExtendToThis then _ else _)
      (if v.has .mayExtendToThis then _ else _)
    split
    · exact .bind (checkKeptArg_lockstep c founded pair.2) fun _ => ih
    · exact ih

private theorem checkCall_lockstep (e : Expr) :
    s.Lockstep (s.checkCall owner e)
      (s.desugared.checkCall owner (e.retype s.unit.types.desugar)) := by
  unfold checkCall
  rw [Expr.node_retype]
  cases e.node with
  | memberCall callee base isArrow args =>
    simp only [Node.retype, Expr.retypeList_eq_map]
    cases callee with
    | none => exact .pure
    | some callee =>
      refine .lookAs (function_desugared callee) fun f _ => ?_
      show s.Lockstep _ (s.desugared.checkKeptArgs _ _ (f.params.zip _))
      rw [List.zip_map_right, Expr.isPartOfThis_retype]
      exact checkKeptArgs_lockstep c founded _
  | _ =>
    simp only [Node.retype]
    exact .pure

/-- The rule on what is kept. -/
private theorem checkExtensions_lockstep :
    s.Lockstep s.checkExtensions s.desugared.checkExtensions := by
  refine .look userFunctions_desugared fun fs _ => ?_
  refine .bind (.forIn_same fun f _ _ => ?_) fun _ => .pure
  refine .lookAs (function_desugared f) fun decl _ => ?_
  refine .lookAs (TranslationUnit.bodyNodes_retype f) fun nodes _ => ?_
  exact .each fun e _ => checkCall_lockstep c founded e

end Kept

end Setting

-- ============================================================ checks

namespace Rule

variable (c : s.unit.Consistent) (founded : s.unit.TypesFounded)
include c founded

/-- Every rule runs side by side with itself on the unit without synonyms. -/
private theorem run_lockstep (rule : Rule) : s.Lockstep (rule.run s) (rule.run s.desugared) := by
  cases rule with
  | recordDecl => exact Setting.checkRecords_lockstep c founded
  | varDecl => exact Setting.checkVariables_lockstep c founded
  | rawPointerAssignment => exact Setting.checkAssignments_lockstep c founded
  | returnValue => exact Setting.checkReturns_lockstep c founded
  | mayExtend => exact Setting.checkExtensions_lockstep c founded
  | determinism => exact Setting.checkDeterminism_lockstep c founded

/-- And so do several, one after the other. -/
private theorem runAll_lockstep (rules : List Rule) :
    s.Lockstep (runAll s rules) (runAll s.desugared rules) := by
  induction rules with
  | nil => exact .pure
  | cons rule rest ih =>
    refine .bind (fun r r' alike _ _ run => ?_) fun _ =>
      .bind (run_lockstep c founded rule) fun _ => ih
    cases run
    exact ⟨_, rfl, alike.ledger, rfl, alike.journal.findings⟩

end Rule

namespace TranslationUnit

section Sides

variable (c : s.unit.Consistent)
include c

/-- A type and its canonical form get one verdict, each in its unit. -/
theorem Consistent.exists_judge_desugared (founded : s.unit.Founded) (mode : Bool)
    (inside : s.unit.Holds .types t.id.index) :
    ∃ v, ((Inspector.mk s mode).judge a t).Returns .silent v
      ∧ ((Inspector.mk s.desugared mode).judge a (s.unit.types.desugar t)).Returns .silent v := by
  obtain ⟨g⟩ := c.depths (π := fun _ => False) founded.types founded.naked
  obtain ⟨v, session, run⟩ := (Inspector.judge_yields (i := ⟨s, mode⟩) c g.toBound a inside
    fun strict _ => g.naked strict).returns .silent
  have asks := Inspector.askAlike_judge (i := ⟨s, mode⟩) c founded.types
  obtain ⟨session', run', -⟩ := (asks.member a t).fresh run
  exact ⟨v, ⟨session, run⟩, session', run'⟩

/-- A check that ends does so without synonyms, with a journal that is alike. -/
private theorem Consistent.exists_check_desugared (founded : s.unit.TypesFounded) {config : Config}
    {rules : List Rule} {journal : Journal} (made : Setting.of s.unit config = .ok s)
    (made' : Setting.of s.unit.desugared config = .ok s.desugared)
    (check : s.unit.check config rules = .ok journal) :
    ∃ journal', s.unit.desugared.check config rules = .ok journal'
      ∧ journal.Alike s.unit.Respelled journal' := by
  obtain ⟨r, runs, rfl⟩ := run_of_check made check
  obtain ⟨r', runs', -, alike⟩ := Rule.runAll_lockstep c founded rules .start .start
    ⟨rfl, rfl, .nil⟩ ⟨⟩ r runs
  refine ⟨r'.journal, ?_, alike⟩
  rw [TranslationUnit.check, made', ok_bind]
  exact bind_eq_ok.mpr ⟨_, runs', rfl⟩

end Sides

/-- With every type in a unit replaced by its canonical form, types are judged as before, and a
check reports findings at the same places, of the same severity and under the same rules, in the
same order. Messages differ at most in the spelling of a type. -/
theorem check_desugared {u : TranslationUnit} (consistent : u.inconsistency? = none)
    (founded : u.Founded) (config : Config) :
    (∀ t, u.Holds .types t.id.index → u.types.canonical t = .ok (u.types.desugar t))
    ∧ (∃ s, Setting.of u config = .ok s ∧ Setting.of u.desugared config = .ok s.desugared
      ∧ ∀ mode a t, u.Holds .types t.id.index → ∃ v,
        ((Inspector.mk s mode).judge a t).Returns .silent v
        ∧ ((Inspector.mk s.desugared mode).judge a (u.types.desugar t)).Returns .silent v)
    ∧ ∀ rules, ∃ journal journal', u.check config rules = .ok journal
      ∧ u.desugared.check config rules = .ok journal'
      ∧ (journal'.findings.map fun f => (f.location, f.severity, f.rule)) =
        (journal.findings.map fun f => (f.location, f.severity, f.rule))
      ∧ List.Forall₂ u.Respelled (journal.findings.map (·.message))
        (journal'.findings.map (·.message)) := by
  have c := inconsistency?_eq_none_iff.mp consistent
  obtain ⟨s, made, rfl, -⟩ := (Setting.of_ends (π := fun _ => False) c config).answer
  have made' : Setting.of s.unit.desugared config = .ok s.desugared := by
    rw [Setting.of_desugared, made]
    rfl
  refine ⟨fun t inside => c.canonical_eq_desugar inside, ⟨s, made, made', ?_⟩, fun rules => ?_⟩
  · exact fun mode a t inside => c.exists_judge_desugared founded mode inside
  · obtain ⟨journal, check⟩ : ∃ journal, s.unit.check config rules = .ok journal :=
      c.exists_journal founded
    obtain ⟨journal', check', alike⟩ := c.exists_check_desugared founded.types made made' check
    exact ⟨journal, journal', check, check', alike.places, alike.messages⟩

/-- A vector of boxes of constant pointers, with a name for the pointer and one for the vector. -/
def boxedPointers : TranslationUnit where
  files := #[⟨"boxes.cpp", false⟩]
  types := ⟨#[.builtin .int, .pointer ⟨⟨0⟩, false⟩, .synonym "IntPtr" ⟨⟨1⟩, true⟩, .record ⟨0⟩,
    .record ⟨1⟩, .synonym "Boxes" ⟨⟨4⟩, false⟩]⟩
  scopes := #[
    { name := none, kind := .translationUnit, parent := none, attributes := .empty },
    { name := some "safememory", kind := .nameSpace, parent := some ⟨0⟩, attributes := .empty }]
  records :=
    let place : Location := ⟨some ⟨0⟩, ⟨0, 0⟩⟩
    #[{ RecordDecl.declared "Box" ⟨0⟩ place with
        definition := some ⟨[⟨"held", ⟨⟨2⟩, false⟩, place, false⟩], [], []⟩
        templateArgs := [.type ⟨⟨2⟩, false⟩]
        isImplicitInstantiation := true },
      { RecordDecl.declared "vector" ⟨1⟩ .unknown with
        templateArgs := [.type ⟨⟨3⟩, false⟩] }]
  functions := #[]
  vars := #[.declared "boxes" ⟨⟨5⟩, false⟩ ⟨some ⟨0⟩, ⟨0, 0⟩⟩ .localVar]
  statements := #[]

/-- Without the two names, the vector is as unsafe as before and the findings are the same, but one
of them spells out the pointer. -/
theorem boxedPointers_check_desugared :
    let messages (box : String) : List String :=
      ["unsafe type at variable declaration", "member 'held' is not safe",
        s!"template parameter 0, '{box}' is not safe", "(D2.1) variable type is not deterministic"]
    boxedPointers.inconsistency? = none ∧ boxedPointers.Founded
    ∧ (∃ s v, Setting.of boxedPointers .default = .ok s
      ∧ Setting.of boxedPointers.desugared .default = .ok s.desugared
      ∧ (s.inspector.judge .heapSafe ⟨⟨5⟩, false⟩).Returns .silent v
      ∧ (s.desugared.inspector.judge .heapSafe ⟨⟨4⟩, false⟩).Returns .silent v)
    ∧ ∃ journal journal', boxedPointers.check .default Rule.all = .ok journal
      ∧ boxedPointers.desugared.check .default Rule.all = .ok journal'
      ∧ (journal'.findings.map fun f => (f.location, f.severity, f.rule)) =
        (journal.findings.map fun f => (f.location, f.severity, f.rule))
      ∧ journal.findings.map (·.message) = messages "Box<IntPtr>"
      ∧ journal'.findings.map (·.message) = messages "Box<const int *>" := by
  intro messages
  have consistent : boxedPointers.inconsistency? = none := by decide
  have founded := (inconsistency?_eq_none_iff.mp consistent).founded (by decide)
  obtain ⟨-, ⟨s, made, made', types⟩, checks⟩ := check_desugared consistent founded .default
  obtain ⟨v, judged, judged'⟩ := types false .heapSafe ⟨⟨5⟩, false⟩ (by decide)
  obtain ⟨journal, journal', check, check', triples, -⟩ := checks Rule.all
  have before : (boxedPointers.check .default Rule.all).map (·.findings.map (·.message)) =
      .ok (messages "Box<IntPtr>") := by
    decide +kernel
  have after : (boxedPointers.desugared.check .default Rule.all).map (·.findings.map (·.message)) =
      .ok (messages "Box<const int *>") := by
    decide +kernel
  refine ⟨consistent, founded, ⟨s, v, made, made', judged, judged'⟩, journal, journal', check,
    check', triples, ?_, ?_⟩
  · exact Except.ok.inj ((congrArg _ check).symm.trans before)
  · exact Except.ok.inj ((congrArg _ check').symm.trans after)

end TranslationUnit

end SafeDialect
