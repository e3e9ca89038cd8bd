/-
Library templates that are deep const by their parameters.

The verdict on such a template is that of its type arguments, asked in library code and with the
definition of the template in progress. Both make the answers milder than those to the same
questions asked afresh: library code trusts a record that is tagged as deep const without looking at
it, and what has the same definition as the template is not looked at again. So arguments that are
fine on their own make a deep const template, but a deep const template may have arguments that are
not.
-/
import SafeDialect.Proofs.Classifier.Judge
import SafeDialect.Proofs.Classifier.Stricter

namespace SafeDialect

-- ============================================================ the same question outside

/-- The same question, not further inside library code. -/
inductive Question.Outside : Question → Question → Prop where
  | type {a : Aspect} {t : QualifiedType} {sys₀ sys : Bool} :
      (sys₀ = true → sys = true) → Outside (.type a t sys₀) (.type a t sys)
  | record {a : Aspect} {id : RecordId} {sys₀ sys : Bool} :
      (sys₀ = true → sys = true) → Outside (.record a id sys₀) (.record a id sys)

theorem Aspect.Relates.outside {a : Aspect} {sys₀ sys : Bool} (inner : sys₀ = true → sys = true) :
    a.Relates Question.Outside sys₀ sys :=
  ⟨fun _ => .type inner, fun _ => .record inner⟩

/-- Inside a record the place is no further in than inside the same record further in. -/
theorem or_of_inner {sys₀ sys isSystem : Bool} (inner : sys₀ = true → sys = true)
    (outer : (sys₀ || isSystem) = true) : (sys || isSystem) = true := by
  rw [Bool.or_eq_true] at outer ⊢
  exact outer.imp_left inner

namespace Inspector

variable {i : Inspector} {P : List (Aspect × RecordId)} {t : QualifiedType}
  {id defined : RecordId} {sys₀ sys : Bool}

/-- In library code the tag counts, and outside it is not enough. -/
theorem stricter_deepConstRecordRuling (c : i.setting.unit.Consistent)
    (inner : sys₀ = true → sys = true) : Stricter Question.Outside
    (i.deepConstRecordRuling sys₀ id defined) (i.deepConstRecordRuling sys id defined) := by
  refine .bind fun r look => .bind fun used _ => .bind fun isSystem _ => ?_
  obtain ⟨suits, known, -⟩ := (suitsDeepConst_ends c (c.fits_of_record look)).answer
  simp only [known, ok_bind]
  cases outer : sys₀ || isSystem with
  | true =>
    simp only [or_of_inner inner outer, if_true]
    split
    · exact .accepted
    split
    · refine .rests fun q mem => ⟨q, mem, ?_⟩
      cases q with
      | type => exact .type fun h => h
      | record => exact .record fun h => h
    · exact .rejected
  | false =>
    simp only [Bool.false_eq_true, if_false]
    -- a record that is not tagged is rejected outside, whatever library code says
    cases r.has .deepConst with
    | false => exact .rejected
    | true =>
      cases sys || isSystem with
      | true => exact .accepted
      | false =>
        simp only [Bool.false_eq_true, if_false]
        split
        · exact .rests_map fun _ _ => .type fun h => h
        · exact .rejected

/-- Outside of library code no question is answered better. -/
theorem stricter_ruling (c : i.setting.unit.Consistent) {q₀ q : Question} (outside : q₀.Outside q) :
    Stricter Question.Outside (i.ruling q₀) (i.ruling q) := by
  cases outside with
  | @type a t sys₀ sys inner =>
    refine .bind fun t _ => ?_
    cases a with
    | heapSafe => exact stricter_safeRuling (.outside inner) (.outside inner)
    | deterministic => exact stricter_deterministicRuling (.outside inner)
    | deepConst => exact stricter_deepConstRuling (.outside inner)
    | stackOnly | nullablePtr | nakedStruct => exact .accepted
  | @record a id sys₀ sys inner =>
    have members {a : Aspect} (isSystem : Bool) :
        a.Relates Question.Outside (sys₀ || isSystem) (sys || isSystem) :=
      .outside (or_of_inner inner)
    refine .bind fun defined _ => ?_
    cases defined with
    | none => exact .rejected
    | some defined =>
      cases a with
      | heapSafe => exact stricter_safeRecordRuling fun isSystem _ => members isSystem
      | deterministic => exact stricter_deterministicRecordRuling members
      | deepConst => exact stricter_deepConstRecordRuling c inner
      | stackOnly | nullablePtr | nakedStruct => exact .accepted

/-- What fails in library code fails outside. -/
theorem Fails.outside (c : i.setting.unit.Consistent) {q₀ q : Question} (h : i.Fails P q)
    (outside : q₀.Outside q) : i.Fails P q₀ := by
  refine h.of_stricter (fun q₀ q outside => ?_) (fun q₀ q => stricter_ruling c) outside
  cases outside <;> rfl

end Inspector

-- ============================================================ the verdict

/-- A record whose definition is a library template that is deep const by its parameters only. -/
structure Setting.ByParams (s : Setting) (id defined : RecordId) (used : RecordDecl) : Prop where
  look : s.unit.record id = .ok used
  resolves : s.definedRecord id = .ok (some defined)
  library : s.isSystemRecord defined = .ok true
  tagged : ∃ r, s.unit.record defined = .ok r ∧ r.has .deepConstWhenParams = true
    ∧ r.has .deepConst = false

/-- What a step answers in a fresh session. -/
def Inspect.Returns {α : Type} (voice : Voice) (act : Inspect α) (a : α) : Prop :=
  ∃ session, act.run (.start voice) = .ok (a, session)

/-- A step that yields returns in a fresh session, if no fault is permitted. -/
theorem Yields.returns {α : Type} {act : Inspect α} {post : α → Prop}
    (h : Yields (fun _ => False) [] false act post) (voice : Voice) : ∃ a, act.Returns voice a := by
  obtain ⟨a, session, run, -⟩ := (h (.start voice) ⟨rfl, rfl⟩).answer
  exact ⟨a, session, run⟩

/-- What a step returns in a fresh session is what it yields. -/
theorem Yields.of_returns {π : Fault → Prop} {α : Type} {act : Inspect α} {post : α → Prop} {a : α}
    {voice : Voice} (h : Yields π [] false act post) (returns : act.Returns voice a) : post a := by
  obtain ⟨session, run⟩ := returns
  exact (Runs.of_eq (h (.start voice) ⟨rfl, rfl⟩) run).2

namespace Inspector

variable {π : Fault → Prop} {i : Inspector} {id defined : RecordId} {used : RecordDecl}

/-- A type argument is not safe, or not deep const. -/
def ArgFails (i : Inspector) (P : List (Aspect × RecordId)) (sys : Bool) (t : QualifiedType) :
    Prop :=
  i.Fails P (.type .heapSafe t sys) ∨ i.Fails P (.type .deepConst t sys)

/-- An argument that fails in library code fails on its own. -/
theorem ArgFails.alone (c : i.setting.unit.Consistent) {P : List (Aspect × RecordId)}
    {t : QualifiedType} (fails : i.ArgFails P true t) : i.ArgFails [] false t := by
  have alone {a : Aspect} (fails : i.Fails P (.type a t true)) : i.Fails [] (.type a t false) := by
    have outside : Question.Outside (.type a t false) (.type a t true) := .type nofun
    exact (fails.outside c outside).antitone (List.nil_subset _)
  exact fails.imp alone alone

/-- The verdict on a template that is deep const by its parameters is that of its arguments in
library code, with its definition in progress. -/
theorem byParams_yields (c : i.setting.unit.Consistent) (b : Bound π i.setting.unit)
    (byParams : i.setting.ByParams id defined used) :
    Yields π [] false (i.deepConstRecord i.judge id) fun v =>
      (v = .good ∨ v = .other) ∧ (v = .good ↔ used.templateArgs ≠ []
        ∧ ∀ t ∈ used.typeArgs, ¬ i.ArgFails [(.deepConst, defined)] true t) := by
  obtain ⟨r, look, params, untagged⟩ := byParams.tagged
  have fits := c.fits_of_record byParams.look
  simp only [deepConstRecord, byParams.resolves, Runs.lift_ok_bind]
  refine .guarded (fun mem => nomatch mem) fun fresh => ?_
  have ready := TranslationUnit.Ready.nil.cons fresh (by decide)
    (TranslationUnit.holds_of_entry look)
  have covers :
      i.setting.unit.room [(.deepConst, defined)] + i.setting.unit.types.size ≤ i.depth := by
    have enough := i.room_lt_depth
    rw [ready.room_cons]
    omega
  simp only [deepConstDefined, look, byParams.library, Runs.lift_ok_bind]
  refine .inside fun entered => .get_bind fun session flag => ?_
  simp only [flag, Bool.or_true, if_true, untagged, params, Bool.false_eq_true, if_false]
  refine .bind (argsDeepConst_yields c (answers_judgeWithin c b i.depth) ready (fun _ => covers)
    byParams.look fits) fun ok told => .pure ?_
  cases ok with
  | false =>
    refine ⟨.inr rfl, iff_of_false nofun fun ⟨filled, passes⟩ => ?_⟩
    rcases told.mp rfl with empty | ⟨t, mem, fails⟩
    · exact filled empty
    · exact passes t mem fails
  | true =>
    have fine := mt told.mpr Bool.true_eq_false.mp
    exact ⟨.inl rfl, iff_of_true rfl ⟨fun empty => fine (.inl empty),
      fun t mem fails => fine (.inr ⟨t, mem, fails⟩)⟩⟩

/-- Every type argument is safe and deep const by the verdicts given, and there is an argument. -/
def ArgsPass (used : RecordDecl) (safe const : QualifiedType → Verdict) : Prop :=
  used.templateArgs ≠ [] ∧ ∀ t ∈ used.typeArgs, (safe t).sound = true ∧ (const t).isGood = true

/-- Verdicts given to the type arguments on their own pass if no argument fails on its own. -/
theorem argsPass_iff (c : i.setting.unit.Consistent) (fits : used.Fits i.setting.unit)
    {voice : Voice} {safe const : QualifiedType → Verdict}
    (given : ∀ t ∈ used.typeArgs, Inspect.Returns voice (i.judge .heapSafe t) (safe t)
      ∧ Inspect.Returns voice (i.judge .deepConst t) (const t)) :
    ArgsPass used safe const ↔
      used.templateArgs ≠ [] ∧ ∀ t ∈ used.typeArgs, ¬ i.ArgFails [] false t := by
  refine and_congr_right fun _ => forall₂_congr fun t mem => ?_
  let b : Bound (· = .endless) i.setting.unit := .none rfl
  have judged (a : Aspect) : Yields _ [] false (i.judge a t) (i.Tells [] false t a) :=
    judge_yields c b a (fits.typeArgs t mem) fun strict => absurd rfl strict
  have ofSafe : (safe t).sound = false ↔ _ := (judged .heapSafe).of_returns (given t mem).1
  have ofConst : (const t).isGood = false ↔ _ := (judged .deepConst).of_returns (given t mem).2
  rw [ArgFails, ← ofSafe, ← ofConst, not_or, Bool.not_eq_false, Bool.not_eq_false]

/-- Whether the arguments pass in library code and whether they pass on their own is the same unless
all that fails on its own passes in library code. -/
theorem passes_agree_iff (c : i.setting.unit.Consistent) {P : List (Aspect × RecordId)} :
    ((used.templateArgs ≠ [] ∧ ∀ t ∈ used.typeArgs, ¬ i.ArgFails P true t) ↔
      used.templateArgs ≠ [] ∧ ∀ t ∈ used.typeArgs, ¬ i.ArgFails [] false t) ↔
    used.templateArgs = [] ∨ (∀ t ∈ used.typeArgs, ¬ i.ArgFails [] false t)
      ∨ ∃ t ∈ used.typeArgs, i.ArgFails P true t := by
  by_cases empty : used.templateArgs = []
  · simp [empty]
  by_cases some : ∃ t ∈ used.typeArgs, i.ArgFails P true t
  -- what fails in library code fails on its own, so neither side passes
  · obtain ⟨t, mem, fails⟩ := some
    refine iff_of_true (iff_of_false ?_ ?_) (.inr (.inr ⟨t, mem, fails⟩))
    · exact fun h => h.2 t mem fails
    · exact fun h => h.2 t mem (fails.alone c)
  · have passed : ∀ t ∈ used.typeArgs, ¬ i.ArgFails P true t :=
      fun t mem fails => some ⟨t, mem, fails⟩
    simp only [empty, some, ne_eq, not_false_eq_true, true_and, false_or, or_false]
    exact ⟨fun agree => agree.mp passed, fun fine => iff_of_true passed fine⟩

/-- A library template that is deep const by its parameters is judged good or of another kind, and
good if its arguments are fine on their own. The converse holds exactly if it has no arguments, or
no argument fails on its own, or some argument fails in library code while the definition of the
template is in progress. Where no type contains itself all these questions are answered. -/
theorem byParams_agrees_iff {u : TranslationUnit} (consistent : u.inconsistency? = none)
    (config : Config) :
    ∃ s, Setting.of u config = .ok s ∧
      ∀ (mode : Bool) (voice : Voice) (id defined : RecordId) (used : RecordDecl),
        s.ByParams id defined used →
        let i : Inspector := ⟨s, mode⟩
        (u.TypesFounded → (∃ v, Inspect.Returns voice (i.deepConstRecord i.judge id) v)
          ∧ ∀ t ∈ used.typeArgs, (∃ v, Inspect.Returns voice (i.judge .heapSafe t) v)
            ∧ ∃ v, Inspect.Returns voice (i.judge .deepConst t) v)
        ∧ ∀ (v : Verdict) (safe const : QualifiedType → Verdict),
          Inspect.Returns voice (i.deepConstRecord i.judge id) v →
          (∀ t ∈ used.typeArgs, Inspect.Returns voice (i.judge .heapSafe t) (safe t)
            ∧ Inspect.Returns voice (i.judge .deepConst t) (const t)) →
          (v = .good ∨ v = .other) ∧ (ArgsPass used safe const → v = .good)
          ∧ ((v = .good ↔ ArgsPass used safe const) ↔
            used.templateArgs = [] ∨ (∀ t ∈ used.typeArgs, ¬ i.ArgFails [] false t)
            ∨ ∃ t ∈ used.typeArgs, i.ArgFails [(.deepConst, defined)] true t) := by
  have c := TranslationUnit.inconsistency?_eq_none_iff.mp consistent
  obtain ⟨s, setting, rfl, -⟩ := (Setting.of_ends c config).answer
  refine ⟨s, setting, fun mode voice id defined used byParams => ?_⟩
  have fits := c.fits_of_record byParams.look
  refine ⟨fun founded => ?_, fun v safe const returns given => ?_⟩
  · obtain ⟨typeRank, ranked⟩ := c.exists_ranked founded
    let b : Bound (fun _ => False) s.unit := .ofRank ranked
    refine ⟨(byParams_yields (i := ⟨s, mode⟩) c b byParams).returns voice, fun t mem => ?_⟩
    have judged (a : Aspect) (plain : a ≠ .nakedStruct) :=
      judge_yields (i := ⟨s, mode⟩) c b a (fits.typeArgs t mem) fun _ other => absurd other plain
    exact ⟨(judged .heapSafe nofun).returns voice, (judged .deepConst nofun).returns voice⟩
  -- here the answers are given, so a bound that lets questions run out of depth will do
  · let b : Bound (· = .endless) s.unit := .none rfl
    obtain ⟨either, good⟩ := (byParams_yields (i := ⟨s, mode⟩) c b byParams).of_returns returns
    have passes := argsPass_iff (i := ⟨s, mode⟩) c fits given
    refine ⟨either, fun pass => ?_, ?_⟩
    · obtain ⟨filled, fine⟩ := passes.mp pass
      exact good.mpr ⟨filled, fun t mem fails => fine t mem (fails.alone c)⟩
    · rw [passes, good]
      exact passes_agree_iff (i := ⟨s, mode⟩) c

end Inspector

namespace TranslationUnit

/-- A library template around a user record that is tagged as deep const and destroys itself. -/
def wrapper : TranslationUnit where
  files := #[⟨"main.cpp", false⟩, ⟨"lib.h", true⟩]
  types := ⟨#[.builtin .void, .record ⟨0⟩]⟩
  scopes := #[{ name := none, kind := .translationUnit, parent := none, attributes := .empty }]
  records :=
    #[{ RecordDecl.declared "User" ⟨0⟩ ⟨some ⟨0⟩, ⟨0, 4⟩⟩ with
        definition := some ⟨[], [], [⟨0⟩]⟩
        attributes := .ofList [.deepConst] },
      { RecordDecl.declared "Wrapper" ⟨0⟩ ⟨some ⟨1⟩, ⟨0, 7⟩⟩ with
        definition := some .empty
        templateArgs := [.type ⟨⟨1⟩, false⟩]
        attributes := .ofList [.deepConstWhenParams] }]
  functions :=
    #[{ FunctionDecl.declared "~User" ⟨0⟩ ⟨some ⟨0⟩, ⟨5, 5⟩⟩ .destructor ⟨⟨0⟩, false⟩ with
        parent := some ⟨0⟩ }]
  vars := #[]
  statements := #[]

/-- The setting of the wrapper. -/
def wrapperSetting : Setting := ⟨wrapper, .default, []⟩

private theorem wrapper_byParams : ∃ used, wrapperSetting.ByParams ⟨1⟩ ⟨1⟩ used
    ∧ used.typeArgs = [⟨⟨1⟩, false⟩] :=
  ⟨_, ⟨rfl, rfl, rfl, _, rfl, rfl, rfl⟩, rfl⟩

/-- The verdict on the wrapper agrees with those on its argument exactly as stated. -/
theorem wrapper_agrees_iff : wrapper.inconsistency? = none
    ∧ Setting.of wrapper .default = .ok wrapperSetting
    ∧ ∃ used, wrapperSetting.ByParams ⟨1⟩ ⟨1⟩ used
      ∧ ((Verdict.good = .good ↔
          Inspector.ArgsPass used (fun _ => .good) fun _ => .malformed) ↔
        used.templateArgs = []
        ∨ (∀ t ∈ used.typeArgs, ¬ Inspector.ArgFails ⟨wrapperSetting, false⟩ [] false t)
        ∨ ∃ t ∈ used.typeArgs,
          Inspector.ArgFails ⟨wrapperSetting, false⟩ [(.deepConst, ⟨1⟩)] true t) := by
  have consistent : wrapper.inconsistency? = none := by decide
  obtain ⟨s, setting, all⟩ := Inspector.byParams_agrees_iff consistent .default
  obtain rfl : s = wrapperSetting := Except.ok.inj (setting.symm.trans rfl)
  obtain ⟨used, byParams, typeArgs⟩ := wrapper_byParams
  refine ⟨consistent, setting, used, byParams, ?_⟩
  refine ((all false .silent ⟨1⟩ ⟨1⟩ used byParams).2 .good (fun _ => .good) (fun _ => .malformed)
    ⟨_, rfl⟩ fun t mem => ?_).2.2
  rw [typeArgs, List.mem_singleton] at mem
  subst mem
  exact ⟨⟨_, rfl⟩, ⟨_, rfl⟩⟩

/-- In library code the tag of a user record is trusted: the wrapper is judged deep const, and its
argument on its own is not. -/
theorem wrapper_good_of_malformed_argument : wrapper.inconsistency? = none
    ∧ Setting.of wrapper .default = .ok wrapperSetting
    ∧ (∃ used, wrapperSetting.ByParams ⟨1⟩ ⟨1⟩ used ∧ used.typeArgs = [⟨⟨1⟩, false⟩])
    ∧ Inspect.Returns .silent ((Inspector.mk wrapperSetting false).judge .deepConst ⟨⟨1⟩, false⟩)
      .malformed
    ∧ Inspect.Returns .silent ((Inspector.mk wrapperSetting false).deepConstRecord
      (Inspector.mk wrapperSetting false).judge ⟨1⟩) .good :=
  ⟨by decide, rfl, wrapper_byParams, ⟨_, rfl⟩, ⟨_, rfl⟩⟩

end TranslationUnit

end SafeDialect
