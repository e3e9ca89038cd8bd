/-
Which variables the rule on variables accepts.

The rule goes through a list of cases and stops at the first that fits, asking a ledger for verdicts
of four aspects on the way. What it accepts is said here without an order and without a ledger, by
fresh classifications. The rule reports one error for each variable that is not accepted, perhaps
with notes after it, and nothing for one that is, whatever other rules have left in the ledger.
-/
import SafeDialect.Proofs.Rules.Independence
import SafeDialect.Proofs.Rules.Reports

namespace SafeDialect

variable {s : Setting} {v : VariableDecl} {t c : QualifiedType} {a : Aspect} {w : Verdict}

namespace Setting

-- ============================================================ what is accepted

/-- A type is of a kind, by a fresh classification. -/
def Applies (s : Setting) (a : Aspect) (t : QualifiedType) : Prop :=
  ∃ w, s.Judges a t w ∧ w.applies = true

/-- A type is sound under an aspect, by a fresh classification. -/
def IsSound (s : Setting) (a : Aspect) (t : QualifiedType) : Prop :=
  ∃ w, s.Judges a t w ∧ w.sound = true

/-- Whether an aspect applies is told by the one verdict there is. -/
theorem Judges.applies_iff (judges : s.Judges a t w) : s.Applies a t ↔ w.applies = true := by
  constructor
  · rintro ⟨w', judges', applies⟩
    rw [judges.unique judges']
    exact applies
  · exact fun applies => ⟨w, judges, applies⟩

/-- And so is whether the type is sound. -/
theorem Judges.isSound_iff (judges : s.Judges a t w) : s.IsSound a t ↔ w.sound = true := by
  constructor
  · rintro ⟨w', judges', sound⟩
    rw [judges.unique judges']
    exact sound
  · exact fun sound => ⟨w, judges, sound⟩

/-- A raw pointer to something safe, where raw pointers are enabled. It is initialized unless it is
a parameter. -/
def AcceptsPointer (s : Setting) (v : VariableDecl) (pointee : QualifiedType) : Prop :=
  s.config.options.disableRawPointers = false ∧ s.IsSound .heapSafe pointee
    ∧ (v.isParamOrCatch = true ∨ v.init.isSome = true)

/-- A sound nullable pointer, or else a sound naked struct, or else a lambda. The last two may not
be extended to the lifetime of `this`. -/
def AcceptsOnStack (s : Setting) (v : VariableDecl) (t : QualifiedType) : Prop :=
  s.Applies .nullablePtr t ∧ s.IsSound .nullablePtr t
  ∨ ¬ s.Applies .nullablePtr t ∧ s.Applies .nakedStruct t ∧ s.IsSound .nakedStruct t
    ∧ v.has .mayExtendToThis = false
  ∨ ¬ s.Applies .nullablePtr t ∧ ¬ s.Applies .nakedStruct t ∧ s.isLambda t = .ok true
    ∧ v.has .mayExtendToThis = false

/-- The types of variables that are accepted although they are not safe. -/
inductive AcceptsUnsafe (s : Setting) (v : VariableDecl) (t : QualifiedType) : Prop where
  | reference {shape : TypeShape} {referent : QualifiedType} (look : s.shape t = .ok shape)
      (refers : shape.referent? = some referent) (safe : s.IsSound .heapSafe referent)
  | stdFunction (is : s.isStdFunction t = .ok true)
  | awaitable (is : s.isAwaitable t = .ok true)
  | pointer {shape : TypeShape} {pointee : QualifiedType} (look : s.shape t = .ok shape)
      (points : shape.pointee? = some pointee) (accepts : s.AcceptsPointer v pointee)
  | onStack (accepts : s.AcceptsOnStack v t)

/-- A union holds primitives only. Any other type is not tagged as deep const in vain, and is safe
or one of those that are accepted nevertheless. -/
def AcceptsType (s : Setting) (v : VariableDecl) (t : QualifiedType) : Prop :=
  (∃ id, s.unionRecord t = .ok (some id) ∧ (s.inspector.unionRecord id).Returns .silent true)
  ∨ s.unionRecord t = .ok none ∧ ¬ (s.Applies .deepConst t ∧ ¬ s.IsSound .deepConst t)
    ∧ (s.IsSound .heapSafe t ∨ s.AcceptsUnsafe v t)

/-- A reference that is no parameter is initialized, and not by a temporary. -/
def AcceptsInit (s : Setting) (v : VariableDecl) (c : QualifiedType) : Prop :=
  s.isReference c = .ok true → v.isParamOrCatch = false →
    ∃ init, v.init = some init ∧ ∀ e, init.node ≠ .withCleanups e

/-- The variables that are accepted: those of constructors and assignments, and those with an
accepted initializer and an accepted type. -/
def AcceptsVariable (s : Setting) (v : VariableDecl) : Prop :=
  s.isExempt v = .ok true
  ∨ ∃ c t, s.canonical v.type = .ok c ∧ s.judgedType c = .ok t ∧ s.AcceptsInit v c
    ∧ s.AcceptsType v t

-- ============================================================ kinds of types

/-- A fresh classification is one level on top of another classification. -/
theorem Judges.exists_assess (judges : s.Judges a t w) :
    ∃ depth session, s.inspector.assess (s.inspector.judgeWithin depth) a t (.start .silent) =
      .ok (w, session) := by
  obtain ⟨session, answer⟩ := judges.returns
  unfold Inspector.judge at answer
  cases inside : (Inspector.mk s false).depth with
  | zero =>
    rw [inside] at answer
    cases answer
  | succ depth =>
    rw [inside] at answer
    exact ⟨depth, session, answer⟩

section Kinds

variable {shape : TypeShape} (look : s.shape t = .ok shape) (noRecord : shape.isRecord = false)
include look noRecord

private theorem not_applies_nakedStruct : ¬ s.Applies .nakedStruct t := by
  rintro ⟨w, judges, applies⟩
  obtain ⟨depth, session, answer⟩ := judges.exists_assess
  have none : s.definedRecordOf t = .ok none := by
    rw [definedRecordOf, recordOf_of_shape look noRecord]
    rfl
  have unfolded : s.inspector.nakedStruct (s.inspector.judgeWithin depth) t (.start .silent) =
      .ok (w, session) := answer
  rw [Inspector.nakedStruct, show s.inspector.setting.definedRecordOf t = .ok .none from none,
    Runs.lift_ok_bind] at unfolded
  cases unfolded
  cases applies

private theorem not_applies_nullablePtr (noName : s.names.isNullablePtr "" = false) :
    ¬ s.Applies .nullablePtr t := by
  rintro ⟨w, judges, applies⟩
  obtain ⟨depth, session, answer⟩ := judges.exists_assess
  obtain ⟨c, canonical, -⟩ := bind_eq_ok.mp look
  have same : s.shape t = s.shape c := (alike_canonical canonical).shape
  have other : s.isNullablePtr c = .ok false := by
    rw [← isNullablePtr_congr same, isNullablePtr_eq (typeName_of_shape look noRecord), noName]
  have unfolded : s.inspector.nullablePtr (s.inspector.judgeWithin depth) t (.start .silent) =
      .ok (w, session) := answer
  rw [Inspector.nullablePtr, show s.inspector.setting.canonical t = .ok c from canonical,
    Runs.lift_ok_bind, show s.inspector.setting.isNullablePtr c = .ok false from other,
    Runs.lift_ok_bind] at unfolded
  cases unfolded
  cases applies

/-- What is no record is not accepted for what only records can be. -/
theorem acceptsUnsafe_iff_of_shape (noName : s.names.isNullablePtr "" = false) :
    s.AcceptsUnsafe v t ↔
      (∃ referent, shape.referent? = some referent ∧ s.IsSound .heapSafe referent)
      ∨ ∃ pointee, shape.pointee? = some pointee ∧ s.AcceptsPointer v pointee := by
  have record := recordOf_of_shape look noRecord
  constructor
  · intro accepts
    cases accepts with
    | reference look' refers safe =>
      rw [look] at look'
      cases look'
      exact .inl ⟨_, refers, safe⟩
    | stdFunction is =>
      rw [isStdFunction, typeName_of_shape look noRecord] at is
      cases is
    | awaitable is =>
      rw [isAwaitable, record] at is
      cases is
    | pointer look' points accepts =>
      rw [look] at look'
      cases look'
      exact .inr ⟨_, points, accepts⟩
    | onStack accepts =>
      rcases accepts with ⟨applies, -⟩ | ⟨-, applies, -⟩ | ⟨-, -, is, -⟩
      · exact absurd applies (not_applies_nullablePtr look noRecord noName)
      · exact absurd applies (not_applies_nakedStruct look noRecord)
      · rw [isLambda, record] at is
        cases is
  · rintro (⟨referent, refers, safe⟩ | ⟨pointee, points, accepts⟩)
    · exact .reference look refers safe
    · exact .pointer look points accepts

end Kinds

end Setting

-- ============================================================ one error or none

/-- Nothing is said if something is accepted. Otherwise there is one error at one of some places,
and then notes. -/
structure ErrorUnless (accepted : Prop) (places : List Location) (said : List Remark) : Prop where
  silent : accepted → said = []
  blamed : ¬ accepted → ∃ e notes, said = e :: notes ∧ e.severity = .error ∧ e.location ∈ places
    ∧ ∀ r ∈ notes, r.severity = .note

/-- Where an error about a variable may stand: at the variable, or at its initializer. -/
def VariableDecl.places (v : VariableDecl) : List Location :=
  v.location :: (v.init.map (·.location)).toList

/-- An error about the type of a variable is placed at the variable. -/
private theorem VariableDecl.location_mem_places : v.location ∈ v.places := List.mem_cons_self

/-- What is accepted may be said in another way. -/
theorem ErrorUnless.congr {accepted accepted' : Prop} {places : List Location} {said : List Remark}
    (h : ErrorUnless accepted places said) (same : accepted ↔ accepted') :
    ErrorUnless accepted' places said :=
  ⟨fun here => h.silent (same.mpr here), fun here => h.blamed (mt same.mp here)⟩

namespace Reports

variable {accepted : Prop} {places : List Location}

/-- A step for what is accepted. -/
theorem accept (h : accepted) :
    Reports s (Pure.pure ⟨⟩ : Check PUnit) fun _ => ErrorUnless accepted places :=
  pure ⟨fun _ => rfl, absurd h⟩

section Reject

variable {location : Location} {message : String} (h : ¬ accepted) (here : location ∈ places)
include h here

/-- An error for what is not accepted. -/
theorem reject :
    Reports s (Check.error location message) fun _ => ErrorUnless accepted places := by
  refine mono error fun _ said same => ?_
  subst same
  exact ⟨fun passes => absurd passes h, fun _ => ⟨_, [], rfl, rfl, here, nofun⟩⟩

/-- An error with notes from the ledger. -/
theorem rejectExplained :
    Reports s (do Check.error location message; Check.explain s a t)
      fun _ => ErrorUnless accepted places := by
  refine bind error fun _ said same => mono explain fun _ notes areNotes => ?_
  subst same
  exact ⟨fun passes => absurd passes h, fun _ => ⟨_, notes, rfl, rfl, here, areNotes⟩⟩

/-- An error with notes from a classification of its own. -/
theorem rejectExplainedBy {α : Type} {act : Inspect α} (scripted : Scripted act) :
    Reports s (Check.errorExplainedBy location message act)
      fun _ => ErrorUnless accepted places := by
  refine mono (errorExplainedBy scripted) fun _ said explained => ?_
  obtain ⟨notes, rfl, areNotes⟩ := explained
  exact ⟨fun passes => absurd passes h, fun _ => ⟨_, notes, rfl, rfl, here, areNotes⟩⟩

end Reject

end Reports

-- ============================================================ one variable

namespace Setting

open Check VariableDecl

/-- A pointer variable. -/
private theorem checkPointerVariable_reports {pointee : QualifiedType} :
    Reports s (s.checkPointerVariable v pointee)
      fun _ => ErrorUnless (s.AcceptsPointer v pointee) v.places := by
  unfold checkPointerVariable AcceptsPointer
  split
  · next disabled => exact .reject (by simp [disabled]) location_mem_places
  · next enabled =>
    refine .ask .verdict fun safe judges => ?_
    rw [judges.isSound_iff]
    split
    · next bad => exact .reject (by simp_all) location_mem_places
    split
    · next bare => exact .reject (by simp_all) location_mem_places
    · next good init => exact .accept (by simp_all [or_iff_not_imp_left, Option.isSome_iff_ne_none])

/-- A variable of a kind that may be on the stack. -/
private theorem checkStackVariable_reports :
    Reports s (s.checkStackVariable v t) fun _ => ErrorUnless (s.AcceptsOnStack v t) v.places := by
  unfold checkStackVariable AcceptsOnStack
  refine .ask .verdict fun nullable ofNullable => ?_
  rw [ofNullable.applies_iff, ofNullable.isSound_iff]
  split
  · next isNullable =>
    split
    · next sound => exact .accept (.inl ⟨isNullable, sound⟩)
    · next bad => exact .rejectExplained (by simp [isNullable, bad]) location_mem_places
  · next noNullable =>
    refine .ask .verdict fun naked ofNaked => ?_
    rw [ofNaked.applies_iff, ofNaked.isSound_iff]
    split
    · next isNaked =>
      split
      · next bad => exact .rejectExplained (by simp_all) location_mem_places
      split
      · next extends_ => exact .reject (by simp_all) location_mem_places
      · next sound stays => exact .accept (by simp_all)
    · next noNaked =>
      refine .look fun isLambda lambda => ?_
      rw [lambda]
      split
      · split
        · next extends_ => exact .reject (by simp_all) location_mem_places
        · next stays => exact .accept (by simp_all)
      · next noLambda => exact .rejectExplained (by simp_all) location_mem_places

private theorem checkUnsafeVariable_reports (noName : s.names.isNullablePtr "" = false) :
    Reports s (s.checkUnsafeVariable v t) fun _ => ErrorUnless (s.AcceptsUnsafe v t) v.places := by
  refine .look fun shape look => ?_
  cases refers : shape.referent? with
  | some referent =>
    have noRecord : shape.isRecord = false := by cases shape <;> first | rfl | cases refers
    have noPointer : shape.pointee? = none := by cases shape <;> first | rfl | cases refers
    have accepts := acceptsUnsafe_iff_of_shape (v := v) look noRecord noName
    simp only [refers, noPointer, Option.some.injEq, exists_eq_left', reduceCtorEq, false_and,
      exists_false, or_false] at accepts
    refine .ask .verdict fun safe judges => ?_
    rw [accepts, judges.isSound_iff]
    split
    · next sound => exact .accept sound
    · next bad => exact .reject bad location_mem_places
  | none =>
    refine .look fun isFunction function => ?_
    split
    · next is => exact .accept (.stdFunction (by rw [function, is]))
    next noFunction =>
    refine .look fun isAwaitable awaitable => ?_
    split
    · next is => exact .accept (.awaitable (by rw [awaitable, is]))
    next noAwaitable =>
    cases points : shape.pointee? with
    | some pointee =>
      have noRecord : shape.isRecord = false := by cases shape <;> first | rfl | cases points
      have accepts := acceptsUnsafe_iff_of_shape (v := v) look noRecord noName
      simp only [refers, points, Option.some.injEq, exists_eq_left', reduceCtorEq, false_and,
        exists_false, false_or] at accepts
      rw [accepts]
      exact checkPointerVariable_reports
    | none =>
      refine .mono checkStackVariable_reports fun _ said h => h.congr ⟨.onStack, fun accepts => ?_⟩
      -- the kinds that come before have been ruled out one by one
      cases accepts with
      | reference look' refers' _ =>
        rw [look] at look'
        cases look'
        rw [refers] at refers'
        cases refers'
      | stdFunction is =>
        rw [function] at is
        exact absurd (Except.ok.inj is) noFunction
      | awaitable is =>
        rw [awaitable] at is
        exact absurd (Except.ok.inj is) noAwaitable
      | pointer look' points' _ =>
        rw [look] at look'
        cases look'
        rw [points] at points'
        cases points'
      | onStack accepts => exact accepts

/-- A variable by the type that it is judged by. -/
private theorem checkVariableType_reports (noName : s.names.isNullablePtr "" = false) :
    Reports s (s.checkVariableType v t) fun _ => ErrorUnless (s.AcceptsType v t) v.places := by
  refine .look fun union? union => ?_
  cases union? with
  | some id =>
    refine .ask .quiet fun passes returns => ?_
    split
    · next good =>
      subst good
      exact .accept (.inl ⟨id, union, returns⟩)
    · next bad =>
      refine .rejectExplainedBy ?_ location_mem_places Inspector.unionRecord_scripted
      rintro (⟨id', union', session', returns'⟩ | ⟨union', -⟩)
      · rw [union] at union'
        cases union'
        -- the union was asked about from a fresh session as well, so this is the same answer
        obtain ⟨session, returns⟩ := returns
        rw [returns] at returns'
        cases returns'
        exact bad rfl
      · rw [union] at union'
        cases union'
  | none =>
    refine .ask .verdict fun deepConst ofDeepConst => ?_
    have accepts : s.AcceptsType v t ↔ ¬ (deepConst.applies = true ∧ ¬ deepConst.sound = true)
        ∧ (s.IsSound .heapSafe t ∨ s.AcceptsUnsafe v t) := by
      unfold AcceptsType
      rw [ofDeepConst.applies_iff, ofDeepConst.isSound_iff, union]
      simp
    rw [accepts]
    split
    · next bad => exact .rejectExplained (by simp_all) location_mem_places
    next wellTagged =>
    have tagged : ¬ (deepConst.applies = true ∧ ¬ deepConst.sound = true) := by simp_all
    refine .ask .verdict fun safe ofSafe => ?_
    rw [ofSafe.isSound_iff]
    split
    · next isSafe => exact .accept ⟨tagged, .inl isSafe⟩
    · next isUnsafe =>
      refine .mono (checkUnsafeVariable_reports noName) fun _ said h => h.congr ?_
      rw [and_iff_right tagged, or_iff_right isUnsafe]

private theorem checkReferenceInit_reports :
    Reports s (checkReferenceInit v) fun b said =>
      let fine := ∃ init, v.init = some init ∧ ∀ e, init.node ≠ .withCleanups e
      (b = true ↔ fine) ∧ ErrorUnless fine v.places said := by
  have blamed {location : Location} {message : String} (here : location ∈ v.places) :
      Reports s (error location message) fun _ => ErrorUnless False v.places :=
    .reject not_false here
  unfold checkReferenceInit
  cases known : v.init with
  | none =>
    refine .bind (blamed location_mem_places) fun _ said h => .pure ?_
    rw [List.append_nil]
    exact ⟨by simp, h.congr (by simp)⟩
  | some init =>
    dsimp only
    split
    · next e cleanups =>
      have here : init.location ∈ v.places := by simp [VariableDecl.places, known]
      refine .bind (blamed here) fun _ said h => .pure ?_
      rw [List.append_nil]
      exact ⟨by simp [cleanups], h.congr (by simp [cleanups])⟩
    · next permanent =>
      exact .pure ⟨by simpa using permanent, fun _ => rfl, by simpa using permanent⟩

/-- A variable that is not exempt is accepted if its initializer is and the type that it is judged
by. -/
theorem acceptsVariable_iff (noExempt : s.isExempt v ≠ .ok true)
    (canonical : s.canonical v.type = .ok c) :
    s.AcceptsVariable v ↔ s.AcceptsInit v c ∧ ∃ t, s.judgedType c = .ok t ∧ s.AcceptsType v t := by
  unfold AcceptsVariable
  rw [or_iff_right noExempt]
  constructor
  · rintro ⟨c', t, canonical', judged, init, type⟩
    rw [canonical] at canonical'
    cases canonical'
    exact ⟨init, t, judged, type⟩
  · rintro ⟨init, t, judged, type⟩
    exact ⟨c, t, canonical, judged, init, type⟩

theorem checkVariable_reports (noName : s.names.isNullablePtr "" = false) {id : VariableId} :
    Reports s (s.checkVariable id) fun _ said =>
      ∃ v, s.unit.variableDecl id = .ok v ∧ ErrorUnless (s.AcceptsVariable v) v.places said := by
  refine .look fun v found => ?_
  suffices Reports s _ fun _ => ErrorUnless (s.AcceptsVariable v) v.places from
    .mono this fun _ said h => ⟨v, found, h⟩
  refine .look fun exempt isExempt => ?_
  split
  · next is => exact .accept (.inl (by rw [isExempt, is]))
  next isNot =>
  have noExempt : s.isExempt v ≠ .ok true := by
    rw [isExempt]
    exact fun same => isNot (Except.ok.inj same)
  refine .look fun c canonical => ?_
  rw [acceptsVariable_iff noExempt canonical]
  -- with an accepted initializer, what is left is the type
  have judged (init : s.AcceptsInit v c) :
      Reports s (do s.checkVariableType v (← s.judgedType c)) fun _ => ErrorUnless
        (s.AcceptsInit v c ∧ ∃ t, s.judgedType c = .ok t ∧ s.AcceptsType v t) v.places := by
    refine .look fun t isJudged => .mono (checkVariableType_reports noName) fun _ said h => ?_
    refine h.congr ⟨fun type => ⟨init, t, isJudged, type⟩, ?_⟩
    rintro ⟨-, t', isJudged', type⟩
    rw [isJudged] at isJudged'
    cases isJudged'
    exact type
  dsimp only
  refine .look fun isReference reference => ?_
  split
  · next needed =>
    obtain ⟨rfl, noParam⟩ : isReference = true ∧ v.isParamOrCatch = false := by simpa using needed
    have init : (∃ init, v.init = some init ∧ ∀ e, init.node ≠ .withCleanups e) ↔
        s.AcceptsInit v c :=
      ⟨fun fine _ _ => fine, fun accepts => accepts reference noParam⟩
    refine .bind checkReferenceInit_reports fun passes said ⟨fine, h⟩ => ?_
    split
    · next good =>
      rw [h.silent (fine.mp good)]
      exact judged (init.mp (fine.mp good))
    · next bad =>
      refine .pure ?_
      have noInit : ¬ s.AcceptsInit v c := fun accepts => bad (fine.mpr (init.mpr accepts))
      rw [List.append_nil]
      exact (h.congr init).congr ⟨fun accepts => absurd accepts noInit, fun accepts => accepts.1⟩
  · next free =>
    refine judged fun reference' noParam => absurd ?_ free
    rw [reference] at reference'
    rw [Except.ok.inj reference', noParam]
    rfl

-- ============================================================ every variable

private theorem checkVariables_reports (noName : s.names.isNullablePtr "" = false) :
    Reports s s.checkVariables fun _ said =>
      ∃ users parts, s.userVariables = .ok users ∧ said = parts.flatten
        ∧ List.Forall₂ (fun id part => ∃ v, s.unit.variableDecl id = .ok v
          ∧ ErrorUnless (s.AcceptsVariable v) v.places part) users parts := by
  refine .look fun users listed => ?_
  refine .bind (.forIn fun id _ => checkVariable_reports noName) fun _ said all => .pure ?_
  obtain ⟨parts, each, rfl⟩ := all
  exact ⟨users, parts, listed, List.append_nil _, each⟩

end Setting

/-- In no naming scheme is the name of a nullable pointer empty. -/
theorem Vocabulary.not_isNullablePtr_empty (scheme : NamingScheme) :
    (Vocabulary.ofScheme scheme).isNullablePtr "" = false := by
  cases scheme <;> decide

namespace Rule

/-- Rules in two parts, one after the other. -/
theorem runAll_append {first rest : List Rule} {r : Run} :
    runAll s (first ++ rest) r = runAll s first r >>= fun end_ => runAll s rest end_.2 := by
  induction first generalizing r with
  | nil => rfl
  | cons rule first ih =>
    rw [List.cons_append, runAll_cons, runAll_cons, bind_assoc]
    exact bind_congr fun end_ => ih

/-- Rules leave a coherent ledger behind. -/
theorem coherent_of_runAll {rules : List Rule} {l : Ledger} {j : Journal} {r : Run}
    (coherent : l.Coherent s) (runs : runAll s rules ⟨l, j⟩ = .ok (⟨⟩, r)) :
    r.ledger.Coherent s := by
  induction rules generalizing l j with
  | nil =>
    cases runs
    exact coherent
  | cons rule rest ih =>
    rw [runAll_cons] at runs
    obtain ⟨⟨⟨⟩, next⟩, runsRule, runsRest⟩ := bind_eq_ok.mp runs
    obtain ⟨after, _, _, rfl, -, agree, -⟩ :=
      rule.run_indifferent l l ⟨coherent, coherent, fun _ _ _ => rfl⟩ _ j ⟨⟩ next runsRule
    exact ih agree.left runsRest

end Rule

/-- A remark as a finding of a rule. -/
def Remark.under (m : Remark) (rule : String) : Finding := ⟨m.location, m.message, m.severity, rule⟩

/-- What the rule on variables finds about one variable: nothing if it is accepted, and else one
error with notes after it. -/
def Setting.FindsOn (s : Setting) (id : VariableId) (part : List Finding) : Prop :=
  ∃ v, s.unit.variableDecl id = .ok v
    ∧ (s.AcceptsVariable v → part = [])
    ∧ (¬ s.AcceptsVariable v → ∃ error notes, part = error :: notes ∧ error.severity = .error
      ∧ error.rule = Rule.varDecl.name ∧ error.location ∈ v.places
      ∧ ∀ note ∈ notes, note.severity = .note)

namespace TranslationUnit

variable {u : TranslationUnit}

/-- Run after any other rules, the rule on variables adds one error for each variable of user code
that is not accepted, with notes after it, and nothing for one that is accepted. The vocabulary may
be any in which the empty name, which every type but a record has, is not that of a nullable
pointer: that of every naming scheme is such a one. -/
theorem one_error_per_rejected_variable (consistent : u.inconsistency? = none)
    (types : u.TypesFounded) (naked : u.NakedFounded) (config : Config)
    (noName : config.vocabulary.isNullablePtr "" = false) :
    ∃ s users, Setting.of u config = .ok s ∧ s.unit = u
      ∧ s.userVariables = .ok users
      ∧ ∀ first before, u.check config first = .ok before →
        ∃ journal parts, u.check config (first ++ [.varDecl]) = .ok journal
          ∧ journal.findings = before.findings ++ parts.flatten
          ∧ List.Forall₂ s.FindsOn users parts := by
  have c := inconsistency?_eq_none_iff.mp consistent
  obtain ⟨s, made, rfl, rfl⟩ := (Setting.of_ends (π := fun _ => False) c config).answer
  obtain ⟨users, listed, -⟩ := (Setting.userVariables_ends (π := fun _ => False) c).answer
  refine ⟨s, users, made, rfl, listed, fun first before check => ?_⟩
  obtain ⟨r, runs, rfl⟩ := run_of_check made check
  -- the rule ends from where the others have left off, and its remarks become findings
  obtain ⟨depths⟩ := c.depths (π := fun _ => False) types naked
  obtain ⟨⟨⟩, r', runsRule, -⟩ := (Setting.checkVariables_completes c depths).answer
    ⟨r.ledger, r.journal.setRule Rule.varDecl.name⟩
  obtain ⟨after, said, rfl, -, users', parts, listed', rfl, each⟩ :=
    Setting.checkVariables_reports noName r.ledger _
      (Rule.coherent_of_runAll Ledger.coherent_empty runs) ⟨⟩ r' runsRule
  rw [listed] at listed'
  cases listed'
  refine ⟨(r.journal.setRule Rule.varDecl.name).reportAll parts.flatten,
    parts.map (·.map (·.under Rule.varDecl.name)), ?_, ?_, ?_⟩
  · have runsAll : Rule.runAll s (first ++ [.varDecl]) .start =
        .ok (⟨⟩, ⟨after, (r.journal.setRule Rule.varDecl.name).reportAll parts.flatten⟩) := by
      rw [Rule.runAll_append, runs, ok_bind, Rule.runAll_cons]
      exact bind_eq_ok.mpr ⟨_, runsRule, rfl⟩
    rw [TranslationUnit.check, made, ok_bind]
    exact bind_eq_ok.mpr ⟨_, runsAll, rfl⟩
  · rw [Journal.reportAll_eq, ← List.map_flatten]
    rfl
  · rw [List.forall₂_map_right_iff]
    refine each.imp fun id part ⟨v, found, one⟩ =>
      ⟨v, found, fun accepted => ?_, fun rejected => ?_⟩
    · rw [one.silent accepted, List.map_nil]
    · obtain ⟨e, notes, rfl, isError, place, areNotes⟩ := one.blamed rejected
      refine ⟨e.under Rule.varDecl.name, notes.map (·.under Rule.varDecl.name), rfl, isError, rfl,
        place, fun note mem => ?_⟩
      obtain ⟨m, memM, rfl⟩ := List.mem_map.mp mem
      exact areNotes m memM

/-- In the widget the rule on variables finds what it should, alone and after the rule on
records. -/
theorem widget_one_error_per_rejected_variable :
    widget.inconsistency? = none ∧ widget.TypesFounded ∧ widget.NakedFounded
    ∧ Config.default.vocabulary.isNullablePtr "" = false
    ∧ ∃ s, Setting.of widget .default = .ok s ∧ s.userVariables = .ok [⟨0⟩, ⟨1⟩, ⟨2⟩, ⟨3⟩]
      ∧ (∃ journal parts, widget.check .default [.varDecl] = .ok journal
        ∧ journal.findings = parts.flatten
        ∧ List.Forall₂ s.FindsOn [⟨0⟩, ⟨1⟩, ⟨2⟩, ⟨3⟩] parts)
      ∧ ∃ before journal parts, widget.check .default [.recordDecl] = .ok before
        ∧ widget.check .default [.recordDecl, .varDecl] = .ok journal
        ∧ journal.findings = before.findings ++ parts.flatten
        ∧ List.Forall₂ s.FindsOn [⟨0⟩, ⟨1⟩, ⟨2⟩, ⟨3⟩] parts := by
  have consistent : widget.inconsistency? = none := by decide
  have c := inconsistency?_eq_none_iff.mp consistent
  have founded := c.founded (by decide)
  have noName := Vocabulary.not_isNullablePtr_empty Options.default.policy
  obtain ⟨s, users, made, -, listed, after⟩ :=
    one_error_per_rejected_variable consistent founded.types founded.naked .default noName
  obtain rfl : s = ⟨widget, .default, []⟩ := Except.ok.inj (made.symm.trans rfl)
  obtain rfl : users = [⟨0⟩, ⟨1⟩, ⟨2⟩, ⟨3⟩] := Except.ok.inj (listed.symm.trans rfl)
  obtain ⟨before, check⟩ : ∃ before, widget.check .default [.recordDecl] = .ok before :=
    c.exists_journal founded
  refine ⟨consistent, founded.types, founded.naked, noName, _, made, listed, ?_, ?_⟩
  · exact after [] .empty rfl
  · obtain ⟨journal, parts, both, rest⟩ := after [.recordDecl] before check
    exact ⟨before, journal, parts, check, both, rest⟩

end TranslationUnit

end SafeDialect
