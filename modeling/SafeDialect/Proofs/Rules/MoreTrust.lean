/-
A check that trusts more reports no more errors.

With more trust no verdict gets worse, so what the rules on declarations accept they accept with
more trust as well, and each of their errors is about one thing that they do not accept. The rules
on flows ask for the same flows, whatever is trusted; only what a lambda may capture depends on what
is safe, and there the first bad capture is the one error.
-/
import SafeDialect.Proofs.Rules.Comparison

namespace SafeDialect

variable {s s' : Setting} {t : QualifiedType} {a : Aspect} {w : Verdict} {v : VariableDecl}

namespace Setting

open Check

-- ============================================================ verdicts

/-- A fresh verdict says of which kind the type is, and whether it is sound. -/
theorem Judges.means (judges : s.Judges a t w) (c : s.unit.Consistent)
    (inside : s.unit.Holds .types t.id.index) :
    w.Means (s.inspector.Kind a t) (s.inspector.Good a t) :=
  (Inspector.judgeWithin_means (π := fun _ => True) trivial c _ a inside).of_returns judges.returns

section Verdicts

variable (c : s.unit.Consistent) (g : Depths (fun _ => False) s.unit)
  (inside : s.unit.Holds .types t.id.index)
include c g inside

/-- Every type is judged, where nothing contains itself. -/
private theorem exists_judges (a : Aspect) : ∃ w, s.Judges a t w := by
  have ends : Ends (fun _ => False) (Ledger.classify s .silent a t) fun _ => True :=
    Ledger.classify_ends c g inside
  obtain ⟨⟨w, said⟩, answer, -⟩ := ends.answer
  obtain ⟨_, tells⟩ := Ledger.exists_tells answer
  exact ⟨w, tells.quiet⟩

/-- Whether an aspect applies to a type is whether the type is of that kind. -/
private theorem applies_iff_kind : s.Applies a t ↔ s.inspector.Kind a t := by
  obtain ⟨w, judges⟩ := exists_judges c g inside a
  rw [judges.applies_iff, (judges.means c inside).applies]

/-- Whether it is sound is whether it is a good one. -/
private theorem isSound_iff_good : s.IsSound a t ↔ s.inspector.Good a t := by
  obtain ⟨w, judges⟩ := exists_judges c g inside a
  rw [judges.isSound_iff, (judges.means c inside).sound]

end Verdicts

section Records

variable (c : s.unit.Consistent) {id : RecordId} (inside : s.unit.Holds .records id.index)
include c inside

private theorem nakedRecord_returns {b : Bool}
    (returns : (s.inspector.nakedRecord s.inspector.judge id).Returns .silent b) :
    b = true ↔ ∃ d, s.definedRecord id = .ok (some d) ∧ ¬ s.inspector.Misshapen d := by
  have tells : s.inspector.TellsKinds (fun _ => True) s.inspector.judge :=
    Inspector.tellsKinds_judgeWithin trivial c _
  exact (Inspector.nakedRecord_tells (i := s.inspector) c tells inside).of_returns returns

private theorem deepConstRecord_returns
    (returns : (s.inspector.deepConstRecord s.inspector.judge id).Returns .silent w) :
    w.sound = true ↔ ¬ s.inspector.Fails [] (.record .deepConst id false) :=
  ((Inspector.deepConstRecord_tells (π := fun _ => True) trivial c inside).of_returns returns).sound

private theorem safeRecord_returns {b : Bool}
    (returns : (s.inspector.safeRecord s.inspector.judge id).Returns .silent b) :
    b = true ↔ ¬ s.inspector.Fails [] (.record .heapSafe id false) := by
  have asks : s.inspector.Answers (Bound.none (π := fun _ => True) trivial) s.inspector.depth
      s.inspector.judge :=
    Inspector.answers_judgeWithin (i := s.inspector) (π := fun _ => True) c (.none trivial) _
  have told := (Inspector.safeRecord_yields (π := fun _ => True) c asks .nil inside
    (absurd trivial)).of_returns returns
  rw [← Bool.not_eq_false, told]

end Records

namespace Broadens

variable (broadens : s.Broadens s')
include broadens

section Verdicts

variable (c : s.unit.Consistent) (g : Depths (fun _ => False) s.unit)
  (inside : s.unit.Holds .types t.id.index)
include c g inside

/-- The verdicts with more trust rest on the same unit. -/
theorem rests : s'.unit.Consistent ∧ Nonempty (Depths (fun _ => False) s'.unit)
    ∧ s'.unit.Holds .types t.id.index := by
  rw [broadens.unit]
  exact ⟨c, ⟨g⟩, inside⟩

/-- What is sound stays sound. -/
private theorem isSound (sound : s.IsSound a t) : s'.IsSound a t := by
  obtain ⟨c', ⟨g'⟩, inside'⟩ := broadens.rests c g inside
  rw [isSound_iff_good c g inside] at sound
  rw [isSound_iff_good c' g' inside']
  exact broadens.good false sound

/-- What is of a kind and not sound was so before. -/
private theorem isMalformed (malformed : s'.Applies a t ∧ ¬ s'.IsSound a t) :
    s.Applies a t ∧ ¬ s.IsSound a t := by
  obtain ⟨c', ⟨g'⟩, inside'⟩ := broadens.rests c g inside
  rw [applies_iff_kind c' g' inside', isSound_iff_good c' g' inside'] at malformed
  rw [applies_iff_kind c g inside, isSound_iff_good c g inside]
  exact broadens.malformed false malformed.1 malformed.2

private theorem applies_nullable : s'.Applies .nullablePtr t ↔ s.Applies .nullablePtr t := by
  obtain ⟨c', ⟨g'⟩, inside'⟩ := broadens.rests c g inside
  rw [applies_iff_kind c' g' inside', applies_iff_kind c g inside]
  obtain ⟨options, library, trusted, rfl⟩ := broadens.same
  rfl

private theorem applies_naked : s'.Applies .nakedStruct t ↔ s.Applies .nakedStruct t := by
  obtain ⟨c', ⟨g'⟩, inside'⟩ := broadens.rests c g inside
  rw [applies_iff_kind c' g' inside', applies_iff_kind c g inside]
  exact exists_congr fun d => broadens.isNaked_iff false

-- ============================================================ variables

/-- A pointer that is accepted stays accepted. -/
private theorem acceptsPointer (accepts : s.AcceptsPointer v t) : s'.AcceptsPointer v t := by
  obtain ⟨enabled, safe, initialized⟩ := accepts
  refine ⟨?_, broadens.isSound c g inside safe, initialized⟩
  rw [broadens.pointers]
  exact enabled

/-- So does what is accepted on the stack. -/
private theorem acceptsOnStack (accepts : s.AcceptsOnStack v t) : s'.AcceptsOnStack v t := by
  have sameLambda : s'.isLambda t = s.isLambda t := broadens.reads (·.isLambda t) fun _ _ _ => rfl
  have sound {a : Aspect} : s.IsSound a t → s'.IsSound a t := broadens.isSound c g inside
  unfold AcceptsOnStack
  rw [broadens.applies_nullable c g inside, broadens.applies_naked c g inside, sameLambda]
  rcases accepts with ⟨nullable, good⟩ | ⟨noNullable, naked, good, stays⟩ | lambda
  · exact .inl ⟨nullable, sound good⟩
  · exact .inr (.inl ⟨noNullable, naked, sound good, stays⟩)
  · exact .inr (.inr lambda)

/-- And what is accepted though it is not safe. -/
private theorem acceptsUnsafe (accepts : s.AcceptsUnsafe v t) : s'.AcceptsUnsafe v t := by
  have sameShape : s'.shape t = s.shape t := broadens.reads (·.shape t) fun _ _ _ => rfl
  obtain ⟨shape, look, _, insideParts, _⟩ := (shape_ends (π := fun _ => False) c inside).answer
  cases accepts with
  | reference look' refers safe =>
    cases look.symm.trans look'
    have insideReferent := insideParts _ (TypeShape.mem_components_of_referent refers)
    exact .reference (sameShape.trans look) refers (broadens.isSound c g insideReferent safe)
  | pointer look' points accepts =>
    cases look.symm.trans look'
    have insidePointee := insideParts _ (TypeShape.mem_components_of_pointee points)
    exact .pointer (sameShape.trans look) points (broadens.acceptsPointer c g insidePointee accepts)
  | onStack accepts => exact .onStack (broadens.acceptsOnStack c g inside accepts)
  | stdFunction is =>
    obtain ⟨options, library, trusted, rfl⟩ := broadens.same
    exact .stdFunction is
  | awaitable is =>
    obtain ⟨options, library, trusted, rfl⟩ := broadens.same
    exact .awaitable is

/-- And every type of a variable. -/
private theorem acceptsType (accepts : s.AcceptsType v t) : s'.AcceptsType v t := by
  rcases accepts with ⟨id, union, holds⟩ | ⟨noUnion, wellTagged, safe⟩
  · obtain ⟨options, library, trusted, rfl⟩ := broadens.same
    exact .inl ⟨id, union, holds⟩
  · have safe' := safe.imp (broadens.isSound c g inside) (broadens.acceptsUnsafe c g inside)
    have wellTagged' := mt (broadens.isMalformed c g inside) wellTagged
    obtain ⟨options, library, trusted, rfl⟩ := broadens.same
    exact .inr ⟨noUnion, wellTagged', safe'⟩

end Verdicts

variable (c : s.unit.Consistent) (g : Depths (fun _ => False) s.unit)
include c g

/-- A variable that is accepted is accepted with more trust. -/
theorem acceptsVariable (fits : v.Fits s.unit) (accepts : s.AcceptsVariable v) :
    s'.AcceptsVariable v := by
  rcases accepts with exempt | ⟨c', t, canonical, judged, init, type⟩
  · obtain ⟨options, library, trusted, rfl⟩ := broadens.same
    exact .inl exempt
  · have insideC := c.canonical_ends (π := fun _ => False) fits.type
    rw [show s.unit.types.canonical v.type = .ok c' from canonical] at insideC
    have insideT := judgedType_ends (π := fun _ => False) c insideC.1
    rw [judged] at insideT
    have type' := broadens.acceptsType c g insideT type
    obtain ⟨options, library, trusted, rfl⟩ := broadens.same
    exact .inr ⟨c', t, canonical, judged, init, type'⟩

-- ============================================================ what does not depend on trust

omit c g in
/-- Trust does not decide which records are looked at. -/
theorem userRecords : s'.userRecords = s.userRecords := by
  unfold Setting.userRecords
  simp only [broadens.unit, broadens.isUserCode]

omit c g in
/-- Nor which functions. -/
theorem userFunctions : s'.userFunctions = s.userFunctions := by
  unfold Setting.userFunctions
  simp only [broadens.unit, broadens.isUserCode]

omit c g in
/-- Nor which variables. -/
theorem userVariables : s'.userVariables = s.userVariables := by
  unfold Setting.userVariables
  simp only [broadens.unit, broadens.isUserCode]

omit c g in
/-- Definitions are no matter of trust. -/
theorem definedRecord (id : RecordId) : s'.definedRecord id = s.definedRecord id :=
  broadens.reads (·.definedRecord id) fun _ _ _ => rfl

omit c g in
/-- Nor are bases. -/
theorem derivesFromNode (id : RecordId) : s'.derivesFromNode id = s.derivesFromNode id := by
  refine broadens.reads (·.derivesFromNode id) fun _ _ _ => ?_
  unfold Setting.derivesFromNode
  delta Setting.derivesFromNodeWithin
  rfl

omit c g in
/-- Nor is what may flow. -/
theorem mayFlow (x : Extent) (e : Expr) : s'.mayFlow x e = s.mayFlow x e := by
  refine broadens.reads (·.mayFlow x e) fun _ _ _ => ?_
  unfold Setting.mayFlow
  delta Expr.flows
  rfl

-- ============================================================ rules on declarations

omit g in
/-- A declaration that passes one of the checks on records passes it with more trust. -/
theorem checkRecord {id : RecordId} (inside : s.unit.Holds .records id.index) :
    Fewer s s' (s.checkRecord id) (s'.checkRecord id) := by
  have scripted {s : Setting} := Inspector.judgeWithin_scripted s.inspector s.inspector.depth
  obtain ⟨c', inside'⟩ : s'.unit.Consistent ∧ s'.unit.Holds .records id.index := by
    rw [broadens.unit]
    exact ⟨c, inside⟩
  refine .look (by rw [broadens.unit]) fun r look => ?_
  dsimp only
  split
  · refine .passesOrError (Inspector.nakedRecord_scripted scripted)
      (Inspector.nakedRecord_scripted scripted) fun b b' returns returns' => ?_
    rw [nakedRecord_returns c inside returns, nakedRecord_returns c' inside' returns',
      broadens.definedRecord]
    rintro ⟨d, known, wellShaped⟩
    exact ⟨d, known, mt (broadens.misshapen false) wellShaped⟩
  -- the last check is made whether the one before it has passed or not
  have safe {location : Location} {message : String} : Fewer s s'
      (do
        if ← quiet (s.inspector.safeRecord s.inspector.judge id) then return ⟨⟩
        else errorExplainedBy location message (s.inspector.safeRecord s.inspector.judge id))
      (do
        if ← quiet (s'.inspector.safeRecord s'.inspector.judge id) then return ⟨⟩
        else
          errorExplainedBy location message (s'.inspector.safeRecord s'.inspector.judge id)) := by
    refine .passesOrError (Inspector.safeRecord_scripted scripted)
      (Inspector.safeRecord_scripted scripted) fun b b' returns returns' => ?_
    rw [safeRecord_returns c inside returns, safeRecord_returns c' inside' returns']
    exact mt (broadens.fails false)
  split
  · refine .ask .quiet .quiet fun w w' returns returns' => ?_
    have sound : w.sound = true → w'.sound = true := by
      rw [deepConstRecord_returns c inside returns, deepConstRecord_returns c' inside' returns']
      exact mt (broadens.fails false)
    split
    · next good =>
      rw [if_pos (sound good)]
      exact safe
    split
    · exact .skip (.errorExplainedBy (Inspector.deepConstRecord_scripted scripted)) fun _ => safe
    · exact .bind (.errorExplainedBy (Inspector.deepConstRecord_scripted scripted)
        (Inspector.deepConstRecord_scripted scripted)) fun _ => safe
  · exact safe

omit g in
/-- The rule on records, one after the other. -/
theorem checkRecords : Fewer s s' s.checkRecords s'.checkRecords := by
  refine .lookInside (userRecords_ends c) broadens.userRecords fun ids inside => ?_
  refine .bind (.forIn fun id mem _ => .look (by rw [broadens.unit]) fun r _ => ?_) fun _ => .pure
  split
  · exact .pure
  · exact .bind (broadens.checkRecord c (inside id mem)) fun _ => .pure

/-- A variable that is accepted stays accepted, and one that is not costs one error. -/
theorem checkVariable (noName : s.names.isNullablePtr "" = false) {id : VariableId}
    (inside : s.unit.Holds .vars id.index) :
    Fewer s s' (s.checkVariable id) (s'.checkVariable id) := by
  have noName' : s'.names.isNullablePtr "" = false := by
    obtain ⟨options, library, trusted, rfl⟩ := broadens.same
    exact noName
  obtain ⟨v, found, fits⟩ := (c.variable_ends (π := fun _ => False) inside).answer
  have found' : s'.unit.variableDecl id = .ok v := by rw [broadens.unit, found]
  -- each run looks the variable up by itself
  have reports {s : Setting} (noName : s.names.isNullablePtr "" = false)
      (found : s.unit.variableDecl id = .ok v) :
      Reports s (s.checkVariable id) fun _ => ErrorUnless (s.AcceptsVariable v) v.places := by
    refine .mono (checkVariable_reports noName) fun _ said ⟨v', found', one⟩ => ?_
    cases found.symm.trans found'
    exact one
  exact .of_accepted v.places (reports noName found) (reports noName' found')
    (broadens.acceptsVariable c g fits)

/-- The rule on variables. -/
theorem checkVariables (noName : s.names.isNullablePtr "" = false) :
    Fewer s s' s.checkVariables s'.checkVariables := by
  refine .lookInside (userVariables_ends c) broadens.userVariables fun ids inside => ?_
  refine .bind (.forIn fun id mem _ => ?_) fun _ => .pure
  exact .bind (broadens.checkVariable c g noName (inside id mem)) fun _ => .pure

omit g in
/-- A variable whose type is deterministic has one that is so with more trust. -/
theorem checkDeterminismOf {id : VariableId} (inside : s.unit.Holds .vars id.index) :
    Fewer s s' (s.checkDeterminismOf id) (s'.checkDeterminismOf id) := by
  obtain ⟨v, found, fits⟩ := (c.variable_ends (π := fun _ => False) inside).answer
  refine .look (by rw [broadens.unit]) fun v' found' => ?_
  cases found.symm.trans found'
  refine .look (broadens.reads (·.needsDeterminism v) fun _ _ _ => rfl) fun needed _ => ?_
  split
  · refine .look (broadens.reads (·.canonical v.type) fun _ _ _ => rfl) fun t canonical => ?_
    have sameShape : s'.shape t = s.shape t := broadens.reads (·.shape t) fun _ _ _ => rfl
    obtain ⟨insideT, c', insideT'⟩ : s.unit.Holds .types t.id.index ∧ s'.unit.Consistent
        ∧ s'.unit.Holds .types t.id.index := by
      have ends := c.canonical_ends (π := fun _ => False) fits.type
      rw [show s.unit.types.canonical v.type = .ok t from canonical] at ends
      rw [broadens.unit]
      exact ⟨ends.1, c, ends.1⟩
    refine .ask .verdict .verdict fun w w' judges judges' => ?_
    have sound : w.sound = true → w'.sound = true := by
      rw [(judges.means c insideT).sound, (judges'.means c' insideT').sound]
      exact broadens.good false
    by_cases good : w.sound = true
    · rw [if_pos good, if_pos (sound good)]
      exact .pure
    rw [if_neg good]
    by_cases good' : w'.sound = true
    · rw [if_pos good']
      -- with more trust the type is accepted, so the other run may report what it likes
      refine .nothing (.look fun shape _ => ?_)
      split
      · exact .bind .error fun _ _ _ => .mono .explain fun _ _ _ => trivial
      split
      · exact .mono .error fun _ _ _ => trivial
      · exact .pure trivial
    · rw [if_neg good']
      refine .look sameShape fun shape _ => ?_
      split
      · exact .errorExplained
      split
      · exact .error
      · exact .pure
  · exact .pure

omit g in
/-- The rule on determinism. -/
theorem checkDeterminism : Fewer s s' s.checkDeterminism s'.checkDeterminism := by
  refine .lookInside (userVariables_ends c) broadens.userVariables fun ids inside => ?_
  refine .bind (.forIn fun id mem _ => ?_) fun _ => .pure
  exact .bind (broadens.checkDeterminismOf c (inside id mem)) fun _ => .pure

-- ============================================================ rules on flows

omit g in
/-- Whether a type lives on the stack only does not depend on trust. -/
theorem verdict_stackOnly {α : Type} {f f' : Verdict → Check α}
    (inside : s.unit.Holds .types t.id.index)
    (next : ∀ w w', w.sound = w'.sound → Fewer s s' (f w) (f' w')) :
    Fewer s s' (verdict s .stackOnly t >>= f) (verdict s' .stackOnly t >>= f') := by
  obtain ⟨c', inside'⟩ : s'.unit.Consistent ∧ s'.unit.Holds .types t.id.index := by
    rw [broadens.unit]
    exact ⟨c, inside⟩
  refine .ask .verdict .verdict fun w w' judges judges' => next w w' ?_
  rw [Bool.eq_iff_iff, (judges.means c inside).sound, (judges'.means c' inside').sound]
  show s.inspector.stackOnly t = _ ↔ s'.inspector.stackOnly t = _
  rw [broadens.reads (·.inspector.stackOnly t) fun _ _ _ => rfl]

omit c g in
/-- What flows into something does so as before. -/
theorem flowsInto (destination value : Expr) :
    Fewer s s' (s.flowsInto destination value) (s'.flowsInto destination value) := by
  refine .speak ?_
  rw [broadens.unit]
  exact bind_congr fun x => broadens.mayFlow x value

omit g in
/-- Which assignments are checked is no matter of trust, and neither is what they let flow. -/
theorem checkAssignment {e : Expr} (fits : e.Fits s.unit) :
    Fewer s s' (s.checkAssignment e) (s'.checkAssignment e) := by
  unfold Setting.checkAssignment
  split
  · refine .look (broadens.reads (·.isRawPointer e.type) fun _ _ _ => rfl) fun isRaw _ => ?_
    split
    · exact .orError (broadens.flowsInto _ _)
    · exact .pure
  · next callee lhs rhs isCall =>
    have fitsLhs : lhs.Fits s.unit :=
      (Expr.fits_iff.mp fits).2.2 lhs (by simp [isCall, Node.children])
    refine .look (broadens.reads (·.isAssignment callee) fun _ _ _ => rfl) fun assigns _ => ?_
    split
    · refine broadens.verdict_stackOnly c (Expr.fits_iff.mp fitsLhs).1 fun w w' same => ?_
      rw [same]
      split
      · exact .orError (broadens.flowsInto _ _)
      · exact .pure
    · exact .pure
  · exact .pure

omit g in
/-- The rule on assignments. -/
theorem checkAssignments : Fewer s s' s.checkAssignments s'.checkAssignments := by
  refine .lookInside (userFunctions_ends c) broadens.userFunctions fun fs inside => ?_
  refine .bind (.forIn fun f mem _ => ?_) fun _ => .pure
  refine .lookInside (c.bodyNodes_ends (inside f mem)) (by rw [broadens.unit]) fun nodes fits => ?_
  refine .bind (.forIn fun e mem _ => ?_) fun _ => .pure
  exact .bind (broadens.checkAssignment c (fits e mem)) fun _ => .pure

omit c g in
/-- A result is checked as before. -/
theorem checkReturn {id : StmtId} : Fewer s s' (s.checkReturn id) (s'.checkReturn id) := by
  refine .look (by rw [broadens.unit]) fun stmt _ => ?_
  split
  · exact .orError (.speak (broadens.mayFlow _ _))
  · exact .pure

omit g in
/-- The rule on results, for the functions that return what lives on the stack only. -/
theorem checkReturns : Fewer s s' s.checkReturns s'.checkReturns := by
  refine .lookInside (userFunctions_ends c) broadens.userFunctions fun fs inside => ?_
  refine .bind (.forIn fun f mem _ => ?_) fun _ => .pure
  refine .lookInside (c.function_ends (inside f mem)) (by rw [broadens.unit]) fun decl fits => ?_
  refine broadens.verdict_stackOnly c fits.ret fun w w' same => ?_
  rw [same]
  split
  · refine .look (by rw [broadens.unit]) fun stmts _ => ?_
    refine .bind (.forIn fun id _ _ => ?_) fun _ => .pure
    exact .bind broadens.checkReturn fun _ => .pure
  · exact .pure

section Kept

variable {ofThis : Bool} {owner : Option RecordId}

omit g in
/-- A capture that may be kept may be kept with more trust. -/
theorem captureComplaint {kind : CaptureKind}
    (inside : ∀ id, kind.captured? = some id → s.unit.Holds .vars id.index) :
    Compares s s' (s.captureComplaint ofThis owner kind) (s'.captureComplaint ofThis owner kind)
      fun x x' said said' => said = [] ∧ said' = [] ∧ (x = none → x' = none) := by
  cases kind with
  | thisPointer =>
    cases owner with
    | none => exact .pure ⟨rfl, rfl, id⟩
    | some id =>
      cases ofThis with
      | true => exact .pure ⟨rfl, rfl, fun none => none⟩
      | false =>
        exact .look (broadens.derivesFromNode id) fun isNode _ => .pure ⟨rfl, rfl, fun none => none⟩
  | byCopy id =>
    obtain ⟨v, found, fits⟩ := (c.variable_ends (π := fun _ => False) (inside id rfl)).answer
    refine .look (by rw [broadens.unit]) fun v' found' => ?_
    cases found.symm.trans found'
    obtain ⟨c', inside'⟩ : s'.unit.Consistent ∧ s'.unit.Holds .types v.type.id.index := by
      rw [broadens.unit]
      exact ⟨c, fits.type⟩
    refine .ask .verdict .verdict fun w w' judges judges' => ?_
    have sound : w.sound = true → w'.sound = true := by
      rw [(judges.means c fits.type).sound, (judges'.means c' inside').sound]
      exact broadens.good false
    by_cases good : w.sound = true
    · rw [if_pos good, if_pos (sound good)]
      exact .pure ⟨rfl, rfl, fun none => none⟩
    · rw [if_neg good]
      by_cases good' : w'.sound = true
      · rw [if_pos good']
        exact .pure ⟨rfl, rfl, fun _ => rfl⟩
      · rw [if_neg good']
        exact .pure ⟨rfl, rfl, fun none => none⟩
  | thisCopy | byReference | array => exact .pure ⟨rfl, rfl, fun none => none⟩

omit broadens c g in
/-- Finding out what is wrong with a capture says nothing. -/
theorem captureComplaint_reports {kind : CaptureKind} :
    Reports s (s.captureComplaint ofThis owner kind) fun _ said => said = [] := by
  cases kind with
  | thisPointer =>
    cases owner with
    | none => exact .pure rfl
    | some id =>
      cases ofThis with
      | true => exact .pure rfl
      | false => exact .look fun _ _ => .pure rfl
  | byCopy id =>
    refine .look fun v _ => .ask .verdict fun w _ => ?_
    split <;> exact .pure rfl
  | thisCopy | byReference | array => exact .pure rfl

omit broadens c g in
/-- The search stops at a capture that may not be kept. -/
theorem refuse_reports {location : Location} {complaint : String} :
    Reports s (do error location complaint; return false) fun kept said =>
      kept = false ∧ errorsIn said = if kept = true then 0 else 1 := by
  refine .bind .error fun _ said told => .pure ⟨rfl, ?_⟩
  subst told
  rfl

omit broadens c g in
/-- One error is reported for captures that may not be kept, and none for captures that may. -/
theorem checkCaptures_reports (captures : List Capture) :
    Reports s (s.checkCaptures ofThis owner captures) fun kept said =>
      errorsIn said = if kept = true then 0 else 1 := by
  induction captures with
  | nil => exact .pure rfl
  | cons capture rest ih =>
    refine .bind captureComplaint_reports fun complaint said quiet => ?_
    subst quiet
    cases complaint with
    | none => exact ih
    | some complaint => exact .mono refuse_reports fun _ _ told => told.2

omit g in
/-- Captures that may be kept may be kept with more trust. -/
theorem checkCaptures {captures : List Capture}
    (inside : ∀ k ∈ captures, ∀ id, k.kind.captured? = some id → s.unit.Holds .vars id.index) :
    Compares s s' (s.checkCaptures ofThis owner captures) (s'.checkCaptures ofThis owner captures)
      fun kept kept' said said' => (kept = true → kept' = true) ∧
        errorsIn said = (if kept = true then 0 else 1) ∧
        errorsIn said' = if kept' = true then 0 else 1 := by
  induction captures with
  | nil => exact .pure ⟨id, rfl, rfl⟩
  | cons capture rest ih =>
    refine .bind (broadens.captureComplaint c (inside capture List.mem_cons_self)) ?_
    rintro complaint complaint' _ _ ⟨rfl, rfl, weaker⟩
    cases complaint with
    | none =>
      rw [weaker rfl]
      exact ih fun k mem => inside k (List.mem_cons_of_mem _ mem)
    | some complaint =>
      -- the other run may stop here as well or go on
      cases complaint' with
      | none =>
        refine .mono (.of_reports refuse_reports (checkCaptures_reports rest)) ?_
        rintro _ kept' said said' ⟨⟨rfl, tally⟩, tally'⟩
        exact ⟨nofun, tally, tally'⟩
      | some complaint' =>
        refine .mono (.of_reports refuse_reports refuse_reports) ?_
        rintro _ kept' said said' ⟨⟨rfl, tally⟩, -, tally'⟩
        exact ⟨nofun, tally, tally'⟩

omit g in
/-- What follows on captures may go on with a better answer. -/
theorem checkCaptures_bind {α : Type} {captures : List Capture} {f f' : Bool → Check α}
    (inside : ∀ k ∈ captures, ∀ id, k.kind.captured? = some id → s.unit.Holds .vars id.index)
    (next : ∀ kept kept', (kept = true → kept' = true) → Fewer s s' (f kept) (f' kept')) :
    Fewer s s' (s.checkCaptures ofThis owner captures >>= f)
      (s'.checkCaptures ofThis owner captures >>= f') := by
  refine Compares.bind (broadens.checkCaptures c inside) fun kept kept' said said' told => ?_
  obtain ⟨better, tally, tally'⟩ := told
  refine Compares.mono (next kept kept' better) fun a a' more more' told => ⟨told.1, ?_⟩
  have fewer : errorsIn said' ≤ errorsIn said := by
    rw [tally, tally']
    cases kept with
    | true => rw [better rfl]
    | false => cases kept' <;> decide
  rw [errorsIn_append, errorsIn_append]
  exact Nat.add_le_add fewer told.2

omit g in
/-- A lambda whose captures may be kept may be kept with more trust. -/
theorem checkAsLambda {arg : Expr} (fits : arg.Fits s.unit) :
    Fewer s s' (s.checkAsLambda ofThis owner arg) (s'.checkAsLambda ofThis owner arg) := by
  unfold Setting.checkAsLambda
  split
  · next l isLambda =>
    have captures := fits.withoutTemporaries.captures isLambda
    exact broadens.checkCaptures_bind c captures fun _ _ _ => .pure
  · next id isName =>
    have insideId : s.unit.Holds .vars id.index := by
      have fitsNode := (Expr.fits_iff.mp fits.withoutTemporaries).2.1
      rw [isName] at fitsNode
      exact fitsNode
    refine .lookInside (c.variable_ends insideId) (by rw [broadens.unit]) fun v fitsV => ?_
    split
    · exact .pure
    · next l known =>
      have captures : ∀ k ∈ l.captures, ∀ id, k.kind.captured? = some id →
          s.unit.Holds .vars id.index := by
        obtain ⟨init, isInit, isLambda⟩ := Option.bind_eq_some_iff.mp known
        exact (fitsV.init init isInit).withoutTemporaries.captures (Node.eq_of_lambda? isLambda)
      refine broadens.checkCaptures_bind c captures fun kept kept' better => ?_
      cases kept with
      | true =>
        rw [better rfl]
        exact .pure
      | false =>
        cases kept' with
        | true => exact .skip .reportAll fun _ => .pure
        | false => exact .bind .reportAll fun _ => .pure
  · exact .pure

omit g in
/-- A kept argument gets no more complaints. -/
theorem checkKeptArg {arg : Expr} (fits : arg.Fits s.unit) :
    Fewer s s' (s.checkKeptArg ofThis owner arg) (s'.checkKeptArg ofThis owner arg) := by
  unfold Setting.checkKeptArg
  split
  · exact .pure
  · refine .bind (broadens.checkAsLambda c fits) fun isLambda => ?_
    split
    · exact .pure
    · split
      · exact .orError (.speak (broadens.mayFlow _ _))
      · exact .error

omit g in
theorem checkKeptArgs {pairs : List (VariableId × Expr)}
    (inside : ∀ p ∈ pairs, s.unit.Holds .vars p.1.index ∧ p.2.Fits s.unit) :
    Fewer s s' (s.checkKeptArgs ofThis owner pairs) (s'.checkKeptArgs ofThis owner pairs) := by
  induction pairs with
  | nil => exact .pure
  | cons pair rest ih =>
    obtain ⟨insideParam, fits⟩ := inside pair List.mem_cons_self
    have others := ih fun p mem => inside p (List.mem_cons_of_mem _ mem)
    refine .look (by rw [broadens.unit]) fun v _ => ?_
    dsimp only
    split
    · exact .bind (broadens.checkKeptArg c fits) fun _ => others
    · exact others

omit g in
theorem checkCall {e : Expr} (fits : e.Fits s.unit) :
    Fewer s s' (s.checkCall owner e) (s'.checkCall owner e) := by
  obtain ⟨-, fitsNode, fitsParts⟩ := Expr.fits_iff.mp fits
  unfold Setting.checkCall
  split
  · next callee base isArrow args isCall =>
    rw [isCall] at fitsNode fitsParts
    refine .lookInside (c.function_ends (fitsNode callee rfl)) (by rw [broadens.unit])
      fun f fitsF => broadens.checkKeptArgs c fun pair mem => ?_
    obtain ⟨param, arg⟩ := pair
    obtain ⟨ofParams, ofArgs⟩ := List.of_mem_zip mem
    exact ⟨fitsF.params param ofParams, fitsParts arg (List.mem_cons_of_mem _ ofArgs)⟩
  · exact .pure

end Kept

omit g in
/-- The rule on what is kept. -/
theorem checkExtensions : Fewer s s' s.checkExtensions s'.checkExtensions := by
  refine .lookInside (userFunctions_ends c) broadens.userFunctions fun fs inside => ?_
  refine .bind (.forIn fun f mem _ => ?_) fun _ => .pure
  refine .look (by rw [broadens.unit]) fun decl _ => ?_
  refine .lookInside (c.bodyNodes_ends (inside f mem)) (by rw [broadens.unit]) fun nodes fits => ?_
  refine .bind (.forIn fun e mem _ => ?_) fun _ => .pure
  exact .bind (broadens.checkCall c (fits e mem)) fun _ => .pure

end Broadens

end Setting

-- ============================================================ checks

namespace Rule

variable (broadens : s.Broadens s') (noName : s.names.isNullablePtr "" = false)
  (c : s.unit.Consistent) (g : Depths (fun _ => False) s.unit)
include broadens noName c g

/-- Under every rule there are no more errors. -/
private theorem run_fewer (rule : Rule) : Fewer s s' (rule.run s) (rule.run s') := by
  cases rule with
  | recordDecl => exact broadens.checkRecords c
  | varDecl => exact broadens.checkVariables c g noName
  | rawPointerAssignment => exact broadens.checkAssignments c
  | returnValue => exact broadens.checkReturns c
  | mayExtend => exact broadens.checkExtensions c
  | determinism => exact broadens.checkDeterminism c

/-- Rules that run one after the other report no more errors with more trust, from wherever they
start. -/
theorem runAll_fewer {rules : List Rule} {l l' : Ledger} {j j' : Journal} {r r' : Run}
    (coherent : l.Coherent s) (coherent' : l'.Coherent s')
    (fewer : j'.errorCount ≤ j.errorCount) (runs : runAll s rules ⟨l, j⟩ = .ok (⟨⟩, r))
    (runs' : runAll s' rules ⟨l', j'⟩ = .ok (⟨⟩, r')) :
    r'.journal.errorCount ≤ r.journal.errorCount := by
  induction rules generalizing l l' j j' with
  | nil =>
    cases runs
    cases runs'
    exact fewer
  | cons rule rest ih =>
    rw [runAll_cons] at runs runs'
    obtain ⟨⟨⟨⟩, next⟩, runsRule, runsRest⟩ := bind_eq_ok.mp runs
    obtain ⟨⟨⟨⟩, next'⟩, runsRule', runsRest'⟩ := bind_eq_ok.mp runs'
    obtain ⟨after, after', said, said', rfl, rfl, kept, kept', -, fewerSaid⟩ :=
      rule.run_fewer broadens noName c g l l' _ _ coherent coherent' ⟨⟩ _ ⟨⟩ _ runsRule runsRule'
    refine ih kept kept' ?_ runsRest runsRest'
    rw [Journal.errorCount_reportAll, Journal.errorCount_reportAll]
    exact Nat.add_le_add fewer fewerSaid

end Rule

/-- Every question ends, and its verdict is good if the type is. -/
theorem Inspector.exists_isGood_iff {i : Inspector} (c : i.setting.unit.Consistent)
    (g : Depths (fun _ => False) i.setting.unit) (inside : i.setting.unit.Holds .types t.id.index)
    (a : Aspect) :
    ∃ v, (i.judge a t).Returns .silent v ∧ (v.isGood = true ↔ i.Good a t) := by
  obtain ⟨v, returns⟩ :=
    (judge_yields c g.toBound a inside fun strict _ => g.naked strict).returns .silent
  have means := (judgeWithin_means (π := fun _ => True) trivial c _ a inside).of_returns returns
  refine ⟨v, returns, ?_⟩
  rw [Verdict.isGood, Bool.and_eq_true, means.applies, means.sound]
  exact and_iff_right_of_imp Kind.of_good

namespace TranslationUnit

variable {u : TranslationUnit}

/-- With more trusted namespaces, types and functions, a type that is safe, deterministic or deep
const still is, in either mode of inspection, and a check reports no more errors. The vocabulary may
be any in which the empty name, which every type but a record has, is not that of a nullable
pointer: that of every naming scheme is such a one. -/
theorem more_trust_fewer_errors (consistent : u.inconsistency? = none) (founded : u.Founded)
    {config config' : Config} (broadens : config.Broadens config')
    (noName : config.vocabulary.isNullablePtr "" = false) :
    ∃ s s', Setting.of u config = .ok s ∧ Setting.of u config' = .ok s'
      ∧ (∀ mode a t, u.Holds .types t.id.index →
        ∃ v v', ((Inspector.mk s mode).judge a t).Returns .silent v
          ∧ ((Inspector.mk s' mode).judge a t).Returns .silent v'
          ∧ (v.isGood = true → v'.isGood = true))
      ∧ ∀ rules, ∃ journal journal', u.check config rules = .ok journal
        ∧ u.check config' rules = .ok journal'
        ∧ journal'.errorCount ≤ journal.errorCount := by
  have c := inconsistency?_eq_none_iff.mp consistent
  obtain ⟨s, made, rfl, rfl⟩ := (Setting.of_ends (π := fun _ => False) c config).answer
  obtain ⟨s', made', sameUnit, -⟩ := (Setting.of_ends (π := fun _ => False) c config').answer
  obtain ⟨g⟩ := c.depths (π := fun _ => False) founded.types founded.naked
  have trusts : s.Broadens s' := broadens.setting made made'
  refine ⟨s, s', made, made', fun mode a t inside => ?_, fun rules => ?_⟩
  · obtain ⟨c', ⟨g'⟩, inside'⟩ := trusts.rests c g inside
    obtain ⟨v, returns, isGood⟩ := Inspector.exists_isGood_iff (i := ⟨s, mode⟩) c g inside a
    obtain ⟨v', returns', isGood'⟩ := Inspector.exists_isGood_iff (i := ⟨s', mode⟩) c' g' inside' a
    refine ⟨v, v', returns, returns', ?_⟩
    rw [isGood, isGood']
    exact trusts.good mode
  · have ends (config : Config) : ∃ journal, s.unit.check config rules = .ok journal :=
      c.exists_journal founded
    obtain ⟨journal, check⟩ := ends s.config
    obtain ⟨journal', check'⟩ := ends config'
    obtain ⟨r, runs, rfl⟩ := run_of_check made check
    obtain ⟨r', runs', rfl⟩ := run_of_check made' check'
    exact ⟨r.journal, r'.journal, check, check', Rule.runAll_fewer trusts noName c g
      Ledger.coherent_empty Ledger.coherent_empty (Nat.le_refl _) runs runs'⟩

/-- A library with an opaque handle, and user code that holds one. -/
def handleUser : TranslationUnit where
  files := #[⟨"user.cpp", false⟩, ⟨"handle.h", true⟩]
  types := ⟨#[.builtin .int, .pointer ⟨⟨0⟩, false⟩, .record ⟨0⟩, .record ⟨1⟩]⟩
  scopes := #[
    { name := none, kind := .translationUnit, parent := none, attributes := .empty },
    { name := some "io", kind := .nameSpace, parent := some ⟨0⟩, attributes := .empty }]
  records :=
    #[{ RecordDecl.declared "Handle" ⟨1⟩ ⟨some ⟨1⟩, ⟨0, 0⟩⟩ with
        definition := some ⟨[⟨"raw", ⟨⟨1⟩, false⟩, ⟨some ⟨1⟩, ⟨0, 0⟩⟩, false⟩], [], []⟩ },
      { RecordDecl.declared "Owner" ⟨0⟩ ⟨some ⟨0⟩, ⟨0, 0⟩⟩ with
        definition := some ⟨[⟨"handle", ⟨⟨2⟩, false⟩, ⟨some ⟨0⟩, ⟨0, 0⟩⟩, false⟩], [], []⟩ }]
  functions := #[]
  vars :=
    #[.declared "handle" ⟨⟨2⟩, false⟩ ⟨some ⟨0⟩, ⟨0, 0⟩⟩ .localVar,
      .declared "owner" ⟨⟨3⟩, false⟩ ⟨some ⟨0⟩, ⟨0, 0⟩⟩ .localVar,
      .declared "raw" ⟨⟨1⟩, false⟩ ⟨some ⟨0⟩, ⟨0, 0⟩⟩ .staticLocal]
  statements := #[]

/-- With the namespace of the handle trusted, two of seven errors are left, and the owner of a
handle is as safe as before or safer. -/
theorem handleUser_more_trust_fewer_errors :
    let trusting : Options := { Options.default with unsafeNamespaces := ["io"] }
    handleUser.inconsistency? = none ∧ handleUser.Founded
    ∧ Config.default.Broadens (.of trusting .empty)
    ∧ Config.default.vocabulary.isNullablePtr "" = false
    ∧ (∃ s s' v v', Setting.of handleUser .default = .ok s
      ∧ Setting.of handleUser (.of trusting .empty) = .ok s'
      ∧ (s.inspector.judge .heapSafe ⟨⟨3⟩, false⟩).Returns .silent v
      ∧ (s'.inspector.judge .heapSafe ⟨⟨3⟩, false⟩).Returns .silent v'
      ∧ (v.isGood = true → v'.isGood = true))
    ∧ ∃ journal journal', handleUser.check .default Rule.all = .ok journal
      ∧ handleUser.check (.of trusting .empty) Rule.all = .ok journal'
      ∧ journal'.errorCount ≤ journal.errorCount
      ∧ journal.errorCount = 7 ∧ journal'.errorCount = 2 := by
  intro trusting
  have consistent : handleUser.inconsistency? = none := by decide
  have founded := (inconsistency?_eq_none_iff.mp consistent).founded (by decide)
  have broadens : Config.default.Broadens (.of trusting .empty) :=
    ⟨rfl, rfl, List.nil_subset _, List.nil_subset _, List.nil_subset _⟩
  have noName := Vocabulary.not_isNullablePtr_empty Options.default.policy
  obtain ⟨s, s', made, made', types, checks⟩ :=
    more_trust_fewer_errors consistent founded broadens noName
  obtain ⟨v, v', judged, judged', better⟩ := types false .heapSafe ⟨⟨3⟩, false⟩ (by decide)
  obtain ⟨journal, journal', check, check', fewer⟩ := checks Rule.all
  have before : (handleUser.check .default Rule.all).map (·.errorCount) = .ok 7 := by decide +kernel
  have after : (handleUser.check (.of trusting .empty) Rule.all).map (·.errorCount) = .ok 2 := by
    decide +kernel
  refine ⟨consistent, founded, broadens, noName,
    ⟨s, s', v, v', made, made', judged, judged', better⟩, journal, journal', check, check', fewer,
    ?_, ?_⟩
  · exact Except.ok.inj ((congrArg _ check).symm.trans before)
  · exact Except.ok.inj ((congrArg _ check').symm.trans after)

end TranslationUnit

end SafeDialect
