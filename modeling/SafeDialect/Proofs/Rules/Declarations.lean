/-
The rules on declarations complete on a consistent unit.
-/
import SafeDialect.Proofs.Rules.Run
import SafeDialect.Rules.Declarations

namespace SafeDialect

variable {π : Fault → Prop} {s : Setting}

open Check

namespace Setting

variable (c : s.unit.Consistent)
include c

-- ============================================================ records by themselves

/-- A union that a type is defines itself. -/
theorem unionRecord_inspected {t : QualifiedType} {id : RecordId}
    (found : s.unionRecord t = .ok (some id)) (inside : s.unit.Holds .records id.index) :
    Yields π [] false (s.inspector.unionRecord id) fun _ => True := by
  have known : s.definedRecordOf t = .ok (some id) := by
    obtain ⟨defined?, known, found⟩ := bind_eq_ok.mp found
    cases defined? with
    | none => cases found
    | some defined =>
      obtain ⟨r, -, same⟩ := bind_eq_ok.mp found
      split at same <;> cases same
      exact known
  obtain ⟨_, -, known⟩ := eq_of_definedRecordOf known
  obtain ⟨r, look, fits⟩ := (c.record_ends inside).answer
  have self := Inspector.definedRecord_self (i := s.inspector) known
  exact .mono (Inspector.unionRecord_yields (i := s.inspector) c self look fits) fun _ _ => trivial

variable (g : Depths π s.unit)
include g

/-- The inspector of a setting answers at its own depth. -/
private theorem inspector_answers :
    s.inspector.Answers g.toBound s.inspector.depth s.inspector.judge :=
  Inspector.answers_judgeWithin (i := s.inspector) c g.toBound s.inspector.depth

section Inspected

variable {id : RecordId} (inside : s.unit.Holds .records id.index)
include inside

/-- A record of the unit is inspected as safe, and the session is as it was. -/
private theorem safeRecord_inspected :
    Yields π [] false (s.inspector.safeRecord s.inspector.judge id) fun _ => True := by
  refine .mono (Inspector.safeRecord_yields c (inspector_answers c g) .nil inside fun _ => ?_)
    fun _ _ => trivial
  have room := Inspector.room_lt_depth s.inspector
  omega

private theorem deepConstRecord_inspected :
    Yields π [] false (s.inspector.deepConstRecord s.inspector.judge id) fun _ => True := by
  refine .mono (Inspector.deepConstRecord_yields c (inspector_answers c g) .nil inside fun _ => ?_)
    fun _ _ => trivial
  have room := Inspector.room_lt_depth s.inspector
  omega

private theorem nakedRecord_inspected :
    Yields π [] false (s.inspector.nakedRecord s.inspector.judge id) fun _ => True :=
  Inspector.nakedRecord_restores (i := s.inspector) c g.toBound inside g.naked

end Inspected

-- ============================================================ records

/-- A record is checked as a naked struct, or as safe and, if it is tagged so, as deep const. -/
private theorem checkRecord_completes {id : RecordId} (inside : s.unit.Holds .records id.index) :
    Completes π (s.checkRecord id) fun _ => True := by
  have safe := safeRecord_inspected c g inside
  have deepConst := deepConstRecord_inspected c g inside
  have naked := nakedRecord_inspected c g inside
  refine .lift_bind (c.record_ends inside) fun r _ _ => ?_
  dsimp only
  split
  · exact passesOrError_completes naked
  · split
    -- a bad deep constness is reported, and safety is checked all the same
    · refine .bind (quiet_completes deepConst) fun verdict _ => ?_
      split
      · exact passesOrError_completes safe
      · refine .bind (errorExplainedBy_completes deepConst) fun _ _ => ?_
        exact passesOrError_completes safe
    · exact passesOrError_completes safe

/-- The rule on records completes. -/
theorem checkRecords_completes : Completes π s.checkRecords fun _ => True := by
  refine .lift_bind (userRecords_ends c) fun ids _ inside => ?_
  refine .bind (.forIn fun id mem _ => ?_) fun _ _ => .pure trivial
  refine .lift_bind (c.record_ends (inside id mem)) fun r _ _ => ?_
  split
  · exact .pure trivial
  · exact .bind (checkRecord_completes c g (inside id mem)) fun _ _ => .pure trivial

-- ============================================================ variables

omit c g in
/-- Whether a reference has an initializer is seen at once. -/
theorem checkReferenceInit_completes {v : VariableDecl} :
    Completes π (checkReferenceInit v) fun _ => True := by
  unfold checkReferenceInit
  split
  · exact .bind error_completes fun _ _ => .pure trivial
  · split
    · exact .bind error_completes fun _ _ => .pure trivial
    · exact .pure trivial

omit g in
/-- The type that a variable is judged by is in the unit: a reference is judged by what it refers
to. -/
theorem judgedType_ends {t : QualifiedType} (inside : s.unit.Holds .types t.id.index) :
    Ends π (s.judgedType t) fun judged => s.unit.Holds .types judged.id.index := by
  refine .bind (shape_ends c inside) fun shape ⟨_, insideParts, _⟩ => ?_
  split
  · next referent known =>
    have insideReferent := insideParts referent (TypeShape.mem_components_of_referent known)
    refine .bind (c.canonical_ends insideReferent) fun inner ⟨insideInner, _⟩ => .pure ?_
    split
    · exact insideInner
    · exact inside
  · exact .pure inside

section Variables

variable {v : VariableDecl}

/-- A pointer is judged by what it points to. -/
private theorem checkPointerVariable_completes {pointee : QualifiedType}
    (inside : s.unit.Holds .types pointee.id.index) :
    Completes π (s.checkPointerVariable v pointee) fun _ => True := by
  unfold checkPointerVariable
  split
  · exact error_completes
  · refine .bind (verdict_completes c g inside) fun verdict _ => ?_
    split
    · exact error_completes
    · split
      · exact error_completes
      · exact .pure trivial

variable {t : QualifiedType} (inside : s.unit.Holds .types t.id.index)
include inside

/-- An error, and the reasons for a verdict. -/
theorem errorExplained_completes {a : Aspect} {location : Location} {message : String} :
    Completes π (do error location message; explain s a t) fun _ => True :=
  .bind error_completes fun _ _ => explain_completes c g inside

/-- What may live on the stack is judged by the kinds of such types, one after the other. -/
private theorem checkStackVariable_completes :
    Completes π (s.checkStackVariable v t) fun _ => True := by
  have verdicts (a : Aspect) : Completes π (verdict s a t) fun _ => True :=
    verdict_completes c g inside
  refine .bind (verdicts .nullablePtr) fun nullable _ => ?_
  split
  · split
    · exact .pure trivial
    · exact errorExplained_completes c g inside
  · refine .bind (verdicts .nakedStruct) fun naked _ => ?_
    split
    · split
      · exact errorExplained_completes c g inside
      · split
        · exact error_completes
        · exact .pure trivial
    · refine .lift_bind (isLambda_ends c inside) fun isLambda _ _ => ?_
      split
      · split
        · exact error_completes
        · exact .pure trivial
      · exact errorExplained_completes c g inside

/-- What is not safe on the heap is looked at by its layer. -/
private theorem checkUnsafeVariable_completes :
    Completes π (s.checkUnsafeVariable v t) fun _ => True := by
  refine .lift_bind (shape_ends c inside) fun shape _ ⟨_, insideParts, _⟩ => ?_
  split
  · next referent known =>
    have insideReferent := insideParts referent (TypeShape.mem_components_of_referent known)
    exact orError_completes (verdict_completes c g insideReferent)
  · refine .lift_bind (isStdFunction_ends c inside) fun isFunction _ _ => ?_
    split
    · exact .pure trivial
    · refine .lift_bind (isAwaitable_ends c inside) fun isAwaitable _ _ => ?_
      split
      · exact .pure trivial
      · split
        · next pointee known =>
          have insidePointee := insideParts pointee (TypeShape.mem_components_of_pointee known)
          exact checkPointerVariable_completes c g insidePointee
        · exact checkStackVariable_completes c g inside

private theorem checkVariableType_completes :
    Completes π (s.checkVariableType v t) fun _ => True := by
  refine .lift_bind (unionRecord_ends c inside) fun union found insideUnion => ?_
  cases union with
  | some id => exact passesOrError_completes (unionRecord_inspected c found (insideUnion id rfl))
  | none =>
    refine .bind (verdict_completes c g inside) fun deepConst _ => ?_
    split
    · exact errorExplained_completes c g inside
    · refine .bind (verdict_completes c g inside) fun safe _ => ?_
      split
      · exact .pure trivial
      · exact checkUnsafeVariable_completes c g inside

end Variables

omit g in
/-- Whether a variable is exempt is answered by looking at its function. -/
theorem isExempt_ends {v : VariableDecl} (fits : v.Fits s.unit) :
    Ends π (s.isExempt v) fun _ => True := by
  unfold isExempt
  split
  · next owner known =>
    exact .bind (c.function_ends (fits.function owner known)) fun _ _ => .pure trivial
  · exact .pure trivial

/-- One variable is checked. -/
private theorem checkVariable_completes {id : VariableId} (inside : s.unit.Holds .vars id.index) :
    Completes π (s.checkVariable id) fun _ => True := by
  refine .lift_bind (c.variable_ends inside) fun v _ fits => ?_
  refine .lift_bind (isExempt_ends c fits) fun exempt _ _ => ?_
  split
  · exact .pure trivial
  · refine .lift_bind (c.canonical_ends fits.type) fun t _ ⟨insideT, _⟩ => ?_
    dsimp only
    have isReference : Ends π (s.isReference t) fun _ => True :=
      .bind (shape_ends c insideT) fun _ _ => .pure trivial
    have judged : Completes π (do s.checkVariableType v (← s.judgedType t)) fun _ => True :=
      .lift_bind (judgedType_ends c insideT) fun _ _ insideJudged =>
        checkVariableType_completes c g insideJudged
    refine .lift_bind isReference fun reference _ _ => ?_
    split
    · refine .bind checkReferenceInit_completes fun passes _ => ?_
      split
      · exact judged
      · exact .pure trivial
    · exact judged

/-- The rule on variables completes. -/
theorem checkVariables_completes : Completes π s.checkVariables fun _ => True := by
  refine .lift_bind (userVariables_ends c) fun ids _ inside => ?_
  refine .bind (.forIn fun id mem _ => ?_) fun _ _ => .pure trivial
  exact .bind (checkVariable_completes c g (inside id mem)) fun _ _ => .pure trivial

-- ============================================================ determinism

omit g in
/-- Whether a variable has to be deterministic is answered by looking at it. -/
theorem needsDeterminism_ends {v : VariableDecl} (fits : v.Fits s.unit) :
    Ends π (s.needsDeterminism v) fun _ => True := by
  unfold needsDeterminism
  cases v.kind with
  | localVar | staticLocal =>
    dsimp only
    split
    · next owner known =>
      exact .bind (c.function_ends (fits.function owner known)) fun _ _ => .pure trivial
    · exact .pure trivial
  | param | catchParam | global => exact .pure trivial

private theorem checkDeterminismOf_completes {id : VariableId}
    (inside : s.unit.Holds .vars id.index) :
    Completes π (s.checkDeterminismOf id) fun _ => True := by
  refine .lift_bind (c.variable_ends inside) fun v _ fits => ?_
  refine .lift_bind (needsDeterminism_ends c fits) fun needed _ _ => ?_
  split
  · refine .lift_bind (c.canonical_ends fits.type) fun t _ ⟨insideT, _⟩ => ?_
    refine .bind (verdict_completes c g insideT) fun verdict _ => ?_
    split
    · exact .pure trivial
    · refine .lift_bind (shape_ends c insideT) fun shape _ _ => ?_
      split
      · exact errorExplained_completes c g insideT
      · split
        · exact error_completes
        · exact .pure trivial
  · exact .pure trivial

/-- The rule on determinism completes. -/
theorem checkDeterminism_completes : Completes π s.checkDeterminism fun _ => True := by
  refine .lift_bind (userVariables_ends c) fun ids _ inside => ?_
  refine .bind (.forIn fun id mem _ => ?_) fun _ _ => .pure trivial
  exact .bind (checkDeterminismOf_completes c g (inside id mem)) fun _ _ => .pure trivial

end Setting

end SafeDialect
