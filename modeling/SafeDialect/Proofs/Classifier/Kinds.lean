/-
What a verdict on a kind tells.

The verdicts on nullable pointers, naked structs and deep const types have two sides. Of which kind
a type is shows in the unit alone; whether it is sound as one rests on what is safe. `Misshapen`
says what is wrong with a naked struct, through the naked structs among its members. The questions
of this module may run out of depth, so that what is said holds of every verdict there is, in units
that contain themselves as well.
-/
import SafeDialect.Proofs.Classifier.Alike
import SafeDialect.Proofs.Classifier.Judge

namespace SafeDialect

/-- A verdict says of which kind a type is, and whether it is sound. -/
structure Verdict.Means (v : Verdict) (kind good : Prop) : Prop where
  applies : v.applies = true ↔ kind
  sound : v.sound = true ↔ good

private theorem Verdict.means_other {kind good : Prop} (noKind : ¬ kind) (noGood : ¬ good) :
    Verdict.other.Means kind good :=
  ⟨iff_of_false Bool.false_ne_true noKind, iff_of_false Bool.false_ne_true noGood⟩

/-- What is known of an answer in two ways. -/
theorem Yields.and {α : Type} {π : Fault → Prop} {P : List (Aspect × RecordId)} {sys : Bool}
    {act : Inspect α} {post post' : α → Prop} (h : Yields π P sys act post)
    (h' : Yields π P sys act post') : Yields π P sys act fun a => post a ∧ post' a := by
  intro s here
  have ends := h s here
  have ends' := h' s here
  unfold Runs at ends ends' ⊢
  cases run : act s with
  | error fault =>
    rw [run] at ends
    exact ends
  | ok answer =>
    rw [run] at ends ends'
    exact ⟨ends.1, ends.2, ends'.2⟩

namespace Inspector

open Inspect

variable {π : Fault → Prop} {i : Inspector} {t : QualifiedType} {id d : RecordId} {r : RecordDecl}

-- ============================================================ nullable pointers

/-- A type that fails to be safe, by a question of its own. -/
def IsUnsafe (i : Inspector) (t : QualifiedType) : Prop := i.Fails [] (.type .heapSafe t false)

/-- Nothing safe is behind a nullable pointer. -/
def PointsUnsafely (i : Inspector) (t : QualifiedType) : Prop :=
  ∀ pointee, i.setting.pointee t = .ok (some pointee) → i.IsUnsafe pointee

/-- A nullable pointer to something safe. -/
def IsGoodNullable (i : Inspector) (t : QualifiedType) : Prop :=
  i.setting.isNullablePtr t = .ok true ∧ ¬ i.PointsUnsafely t

section

variable (permitted : π .endless) (c : i.setting.unit.Consistent)
  (inside : i.setting.unit.Holds .types t.id.index)
include permitted c inside

private theorem safe_tells (n : Nat) :
    Yields π [] false (i.judgeWithin n .heapSafe t) fun v => v.sound = false ↔ i.IsUnsafe t :=
  answers_judgeWithin c (.none permitted) n .heapSafe inside .nil (absurd permitted)

private theorem nullablePtr_tells (n : Nat) :
    Yields π [] false (i.nullablePtr (i.judgeWithin n) t) fun v =>
      v.Means (i.setting.isNullablePtr t = .ok true) (i.IsGoodNullable t) := by
  refine .look (c.canonical_ends inside) fun t' canonical ⟨inside', _⟩ => ?_
  have same : i.setting.shape t = i.setting.shape t' := (Setting.alike_canonical canonical).shape
  unfold IsGoodNullable PointsUnsafely
  rw [Setting.isNullablePtr_congr same, Setting.pointee_congr same]
  refine .look (Setting.isNullablePtr_ends c inside') fun nullable known _ => ?_
  rw [known]
  split
  · next isNullable =>
    rw [isNullable]
    refine .look (Setting.pointee_ends c inside') fun pointee? found insideP => ?_
    rw [found]
    cases pointee? with
    | none => exact .pure ⟨by simp [Verdict.malformed], by simp [Verdict.malformed]⟩
    | some pointee =>
      refine .bind (safe_tells permitted c (insideP pointee rfl) n) fun v told => .pure ?_
      exact ⟨by simp, by simp [← told]⟩
  · next noNullable =>
    exact .pure (Verdict.means_other (by simp [noNullable]) (by simp [noNullable]))

end

-- ============================================================ naked structs

/-- A type is a naked struct with the given definition. -/
def IsNaked (i : Inspector) (t : QualifiedType) (d : RecordId) : Prop :=
  i.setting.definedRecordOf t = .ok (some d)
    ∧ ∃ r, i.setting.unit.record d = .ok r ∧ r.has .nakedStruct = true

/-- A record that has not the form of a naked struct: it has a base or a method that it may not
have, or a field that is not safe and not sound as a nullable pointer or a naked struct either. -/
inductive Misshapen (i : Inspector) : RecordId → Prop where
  | base {d : RecordId} {r : RecordDecl} (look : i.setting.unit.record d = .ok r)
      (derives : r.bases ≠ []) : Misshapen i d
  | method {d : RecordId} {r : RecordDecl} {m : FunctionId} {f : FunctionDecl}
      (look : i.setting.unit.record d = .ok r) (mem : m ∈ r.methods)
      (found : i.setting.unit.function m = .ok f) (bad : isNakedMethod r f = false) : Misshapen i d
  | field {d : RecordId} {r : RecordDecl} {f : Field} (look : i.setting.unit.record d = .ok r)
      (mem : f ∈ r.fields) (bad : i.IsUnsafe f.type) (noNullable : ¬ i.IsGoodNullable f.type)
      (noNaked : i.setting.isNullablePtr f.type = .ok true ∨ ∀ inner, ¬ i.IsNaked f.type inner) :
      Misshapen i d
  | naked {d inner : RecordId} {r : RecordDecl} {f : Field}
      (look : i.setting.unit.record d = .ok r) (mem : f ∈ r.fields) (bad : i.IsUnsafe f.type)
      (noNullable : ¬ i.IsGoodNullable f.type) (isNaked : i.IsNaked f.type inner)
      (misshapen : Misshapen i inner) : Misshapen i d

/-- A naked struct with the form of one. -/
def IsGoodNaked (i : Inspector) (t : QualifiedType) : Prop :=
  ∃ d, i.IsNaked t d ∧ ¬ i.Misshapen d

/-- A field that no naked struct may have. A nullable pointer is not looked at as a naked
struct. -/
def BadField (i : Inspector) (f : Field) : Prop :=
  i.IsUnsafe f.type ∧ ¬ i.IsGoodNullable f.type
    ∧ (i.setting.isNullablePtr f.type = .ok true ∨ ¬ i.IsGoodNaked f.type)

/-- A method that no naked struct may have. -/
def BadMethod (i : Inspector) (r : RecordDecl) (m : FunctionId) : Prop :=
  ∃ f, i.setting.unit.function m = .ok f ∧ isNakedMethod r f = false

/-- A type comes down to one record, and that has one definition. -/
theorem IsNaked.unique {d' : RecordId} (naked : i.IsNaked t d) (naked' : i.IsNaked t d') :
    d = d' := by
  have same := naked.1.symm.trans naked'.1
  cases same
  rfl

/-- One bad field is enough. -/
private theorem misshapen_of_badField {f : Field} (look : i.setting.unit.record d = .ok r)
    (mem : f ∈ r.fields) (bad : i.BadField f) : i.Misshapen d := by
  obtain ⟨bad, noNullable, isNullable | noGood⟩ := bad
  · exact .field look mem bad noNullable (.inl isNullable)
  by_cases isNaked : ∃ inner, i.IsNaked f.type inner
  · obtain ⟨inner, isNaked⟩ := isNaked
    refine .naked look mem bad noNullable isNaked ?_
    by_contra wellShaped
    exact noGood ⟨inner, isNaked, wellShaped⟩
  · exact .field look mem bad noNullable (.inr (not_exists.mp isNaked))

private theorem misshapen_iff (look : i.setting.unit.record d = .ok r) :
    i.Misshapen d ↔
      r.bases ≠ [] ∨ (∃ f ∈ r.fields, i.BadField f) ∨ ∃ m ∈ r.methods, i.BadMethod r m := by
  constructor
  · intro misshapen
    cases misshapen with
    | base look' derives =>
      cases look.symm.trans look'
      exact .inl derives
    | method look' mem found bad =>
      cases look.symm.trans look'
      exact .inr (.inr ⟨_, mem, _, found, bad⟩)
    | field look' mem bad noNullable noNaked =>
      cases look.symm.trans look'
      refine .inr (.inl ⟨_, mem, bad, noNullable, noNaked.imp_right ?_⟩)
      rintro noNaked ⟨inner, isNaked, -⟩
      exact noNaked inner isNaked
    | naked look' mem bad noNullable isNaked misshapen =>
      cases look.symm.trans look'
      refine .inr (.inl ⟨_, mem, bad, noNullable, .inr ?_⟩)
      rintro ⟨inner, isNaked', wellShaped⟩
      rw [← isNaked.unique isNaked'] at wellShaped
      exact wellShaped misshapen
  · rintro (derives | ⟨f, mem, bad⟩ | ⟨m, mem, f, found, bad⟩)
    · exact .base look derives
    · exact misshapen_of_badField look mem bad
    · exact .method look mem found bad

/-- What the answers to questions tell about the members of naked structs. -/
structure TellsKinds (i : Inspector) (π : Fault → Prop) (ask : Ask) : Prop where
  safe : ∀ {t : QualifiedType}, i.setting.unit.Holds .types t.id.index →
    Yields π [] false (ask .heapSafe t) fun v => v.sound = false ↔ i.IsUnsafe t
  nullable : ∀ {t : QualifiedType}, i.setting.unit.Holds .types t.id.index →
    Yields π [] false (ask .nullablePtr t) fun v =>
      v.Means (i.setting.isNullablePtr t = .ok true) (i.IsGoodNullable t)
  naked : ∀ {t : QualifiedType}, i.setting.unit.Holds .types t.id.index →
    Yields π [] false (ask .nakedStruct t) fun v =>
      v.Means (∃ d, i.IsNaked t d) (i.IsGoodNaked t)

section

variable {n : Nat} (c : i.setting.unit.Consistent) (tells : i.TellsKinds π (i.judgeWithin n))
include c tells

private theorem nakedField_tells {f : Field}
    (inside : i.setting.unit.Holds .types f.type.id.index) :
    Yields π [] false (i.nakedField (i.judgeWithin n) f) fun ok => ok = false ↔ i.BadField f := by
  refine .look (c.canonical_ends inside) fun t canonical _ => ?_
  have same := judgeWithin_congr (i := i) (Setting.alike_canonical canonical) n
  rw [← same .heapSafe, ← same .nullablePtr, ← same .nakedStruct]
  have accepted (fine : ¬ i.BadField f) :
      Yields π [] false (pure true : Inspect Bool) fun ok => ok = false ↔ i.BadField f :=
    .pure (iff_of_false Bool.true_eq_false_eq_False fine)
  -- the reasons come before the remark, and change nothing about the answer
  have rejected {a : Aspect} {post : Verdict → Prop} {message : String}
      (ofAsk : Yields π [] false (i.judgeWithin n a f.type) post) (bad : i.BadField f) :
      Yields π [] false (do
        let _ ← i.judgeWithin n a f.type
        remark f.location message
        return false) fun ok => ok = false ↔ i.BadField f :=
    .bind ofAsk fun _ _ => .bind .remark fun _ _ => .pure (iff_of_true rfl bad)
  refine .bind (.quietly (tells.safe inside)) fun safe toldSafe => ?_
  split
  · next isSafe =>
    refine accepted fun bad => ?_
    rw [toldSafe.mpr bad.1] at isSafe
    cases isSafe
  next unsound =>
  have isUnsafe : i.IsUnsafe f.type := toldSafe.mp (Bool.eq_false_iff.mpr unsound)
  refine .bind (.quietly (tells.nullable inside)) fun nullable toldNullable => ?_
  split
  · next applies =>
    split
    · next sound => exact accepted fun bad => bad.2.1 (toldNullable.sound.mp sound)
    · next unsound =>
      exact rejected (tells.nullable inside)
        ⟨isUnsafe, mt toldNullable.sound.mpr unsound, .inl (toldNullable.applies.mp applies)⟩
  next other =>
  have noNullable : ¬ i.setting.isNullablePtr f.type = .ok true := mt toldNullable.applies.mpr other
  have notGood : ¬ i.IsGoodNullable f.type := fun good => noNullable good.1
  refine .bind (.quietly (tells.naked inside)) fun naked toldNaked => ?_
  split
  · split
    · next sound =>
      exact accepted fun bad => bad.2.2.elim noNullable (absurd (toldNaked.sound.mp sound))
    · next unsound =>
      exact rejected (tells.naked inside)
        ⟨isUnsafe, notGood, .inr (mt toldNaked.sound.mpr unsound)⟩
  · next noNaked =>
    refine rejected (tells.safe inside) ⟨isUnsafe, notGood, .inr ?_⟩
    rintro ⟨d, isNaked, -⟩
    exact noNaked (toldNaked.applies.mpr ⟨d, isNaked⟩)

/-- The check of a record as a naked struct accepts it just if it is defined and has the form of
one. -/
theorem nakedRecord_tells (inside : i.setting.unit.Holds .records id.index) :
    Yields π [] false (i.nakedRecord (i.judgeWithin n) id) fun ok => ok = true ↔
      ∃ d, i.setting.definedRecord id = .ok (some d) ∧ ¬ i.Misshapen d := by
  refine .look (Setting.definedRecord_ends c inside) fun defined? known insideD => ?_
  rw [known]
  cases defined? with
  | none => exact .pure (by simp)
  | some d =>
    refine .look (c.record_ends (insideD d rfl)) fun r look fits => ?_
    suffices Yields π [] false _ fun ok => ok = false ↔ i.Misshapen d from
      .mono this fun ok told => by simp [← told]
    rw [misshapen_iff look]
    split
    · next base rest derives =>
      exact .bind .remark fun _ _ => .pure (iff_of_true rfl (.inl (by simp [derives])))
    · next noBases =>
      rw [noBases]
      simp only [ne_eq, not_true_eq_false, false_or]
      refine .both (.allM _ fun f mem => nakedField_tells c tells (fits.fields f mem))
        (.allM _ fun m mem => ?_)
      refine .look (c.function_ends (fits.methods m mem)) fun f found _ => ?_
      split
      · next fine => exact .pure (by simp [BadMethod, found, fine])
      · next bad => exact .bind .remark fun _ _ => .pure (by simp [BadMethod, found, bad])

private theorem nakedStruct_tells (inside : i.setting.unit.Holds .types t.id.index) :
    Yields π [] false (i.nakedStruct (i.judgeWithin n) t) fun v =>
      v.Means (∃ d, i.IsNaked t d) (i.IsGoodNaked t) := by
  refine .look (Setting.definedRecordOf_ends c inside) fun defined? found insideD => ?_
  have other (noNaked : ∀ d, ¬ i.IsNaked t d) :
      Verdict.other.Means (∃ d, i.IsNaked t d) (i.IsGoodNaked t) :=
    Verdict.means_other (not_exists.mpr noNaked) fun ⟨d, isNaked, _⟩ => noNaked d isNaked
  cases defined? with
  | none =>
    refine .pure (other fun d isNaked => ?_)
    cases found.symm.trans isNaked.1
  | some d =>
    obtain ⟨id, -, known⟩ := Setting.eq_of_definedRecordOf found
    refine .look (c.record_ends (insideD d rfl)) fun r look _ => ?_
    split
    · next tagged =>
      have isNaked : i.IsNaked t d := ⟨found, r, look, tagged⟩
      refine .bind (nakedRecord_tells c tells (insideD d rfl)) fun ok told => .pure
        ⟨iff_of_true rfl ⟨d, isNaked⟩, ?_⟩
      rw [told, definedRecord_self known]
      constructor
      · rintro ⟨d', same, wellShaped⟩
        cases same
        exact ⟨d, isNaked, wellShaped⟩
      · rintro ⟨d', isNaked', wellShaped⟩
        rw [← isNaked.unique isNaked'] at wellShaped
        exact ⟨d, rfl, wellShaped⟩
    · next untagged =>
      refine .pure (other fun d' isNaked => ?_)
      obtain ⟨found', r', look', tagged⟩ := isNaked
      cases found.symm.trans found'
      cases look.symm.trans look'
      exact untagged tagged

end

/-- Every depth tells about the members of naked structs what there is to tell. -/
theorem tellsKinds_judgeWithin (permitted : π .endless) (c : i.setting.unit.Consistent) (n : Nat) :
    i.TellsKinds π (i.judgeWithin n) := by
  induction n with
  | zero => exact ⟨fun _ => .error permitted, fun _ => .error permitted, fun _ => .error permitted⟩
  | succ n ih =>
    exact ⟨fun inside => safe_tells permitted c inside (n + 1),
      fun inside => nullablePtr_tells permitted c inside n,
      fun inside => nakedStruct_tells c ih inside⟩

-- ============================================================ deep const types

/-- A record of user code that is tagged as deep const. -/
def TagsDeepConst (i : Inspector) (id : RecordId) : Prop :=
  ∃ d r, i.setting.definedRecord id = .ok (some d) ∧ i.setting.unit.record d = .ok r
    ∧ i.setting.isSystemRecord d = .ok false ∧ r.has .deepConst = true

/-- A type whose tag says that it is deep const. The tags of smart and nullable pointers do not
count. -/
def IsTaggedDeepConst (i : Inspector) (t : QualifiedType) : Prop :=
  ∃ id, i.setting.shape t = .ok (.record id) ∧ i.setting.isSafePtr t = .ok false
    ∧ i.setting.isNullablePtr t = .ok false ∧ i.TagsDeepConst id

/-- A verdict of which it is known whether it is good, and that it applies if it is sound or
something else holds. -/
theorem means_of_isGood {v : Verdict} {fails tagged : Prop} (good : v.isGood = false ↔ fails)
    (kind : v.applies = true ↔ v.sound = true ∨ tagged) : v.Means (¬ fails ∨ tagged) (¬ fails) := by
  have sound : v.sound = true ↔ ¬ fails := by
    rw [← good, Verdict.isGood, Bool.and_eq_false_iff]
    constructor
    · rintro sound (other | unsound)
      · rw [kind.mpr (.inl sound)] at other
        cases other
      · rw [sound] at unsound
        cases unsound
    · intro isGood
      by_contra unsound
      exact isGood (.inr (Bool.eq_false_iff.mpr unsound))
  exact ⟨by rw [kind, sound], sound⟩

section

variable {n : Nat} (permitted : π .endless) (c : i.setting.unit.Consistent)
include permitted c

/-- Once its members are looked at, a record counts as tagged. -/
theorem deepConstMembers_applies {P : List (Aspect × RecordId)} {sys entered : Bool}
    (ready : i.setting.unit.Ready P) (fits : r.Fits i.setting.unit) :
    Yields π P sys (i.deepConstMembers (i.judgeWithin n) entered r) fun v => v.applies = true := by
  have member {t : QualifiedType} (inside : i.setting.unit.Holds .types t.id.index) :
      Yields π P sys (do return (← i.judgeWithin n .deepConst t).isGood) fun ok =>
        ok = false ↔ i.Fails P (.type .deepConst t sys) :=
    .bind (answers_judgeWithin c (.none permitted) n .deepConst inside ready (absurd permitted))
      fun _ told => .pure told
  unfold deepConstMembers
  split
  · exact .bind .remark fun _ _ => .pure rfl
  refine .bind (.allMembers fun f mem => member (fits.fields f mem)) fun fields _ => ?_
  split
  · exact .pure rfl
  refine .bind (deepConstMethods_yields c fits) fun methods _ => ?_
  split
  · exact .pure rfl
  · exact .bind (.allMembers fun f mem => member (fits.bases f mem)) fun _ _ => .pure rfl

/-- The verdict on a record as deep const applies to one that passes or is tagged, and is good for
one that passes. -/
theorem deepConstRecord_tells (inside : i.setting.unit.Holds .records id.index) :
    Yields π [] false (i.deepConstRecord (i.judgeWithin n) id) fun v =>
      v.Means (¬ i.Fails [] (.record .deepConst id false) ∨ i.TagsDeepConst id)
        (¬ i.Fails [] (.record .deepConst id false)) := by
  have asks : i.Answers (.none permitted) n (i.judgeWithin n) := answers_judgeWithin c _ n
  obtain ⟨used, lookUsed, fitsUsed⟩ := (c.record_ends (π := fun _ => False) inside).answer
  refine .mono (.and (deepConstRecord_yields c asks .nil inside (absurd permitted)) ?_)
    fun v told => means_of_isGood told.1 told.2
  refine .look (Setting.definedRecord_ends c inside) fun defined? known insideD => ?_
  cases defined? with
  | none =>
    refine .pure (iff_of_false Bool.false_ne_true ?_)
    rintro (sound | ⟨d, r, found, -⟩)
    · cases sound
    · cases known.symm.trans found
  | some d =>
    refine .guarded (fun inProgress => nomatch inProgress) fun _ => ?_
    have ready : i.setting.unit.Ready [(.deepConst, d)] :=
      TranslationUnit.Ready.nil.cons nofun (by decide) (insideD d rfl)
    refine .look (c.record_ends (insideD d rfl)) fun r look fits => ?_
    refine .look (Setting.isSystemRecord_ends c (insideD d rfl)) fun isSystem library _ => ?_
    refine .inside fun entered => .get_bind fun s flag => ?_
    have tags : i.TagsDeepConst id ↔ isSystem = false ∧ r.has .deepConst = true := by
      constructor
      · rintro ⟨d', r', known', look', user, tagged⟩
        cases known.symm.trans known'
        cases look.symm.trans look'
        cases library.symm.trans user
        exact ⟨rfl, tagged⟩
      · rintro ⟨rfl, tagged⟩
        exact ⟨d, r, known, look, library, tagged⟩
    rw [flag, tags]
    cases isSystem with
    | true =>
      -- in library code no verdict has two sides
      simp only [Bool.or_true, if_true]
      split
      · exact .pure (by simp [Verdict.good])
      split
      · refine .bind (argsDeepConst_yields c asks ready (absurd permitted) lookUsed fitsUsed)
          fun ok _ => .pure (by simp [Verdict.flag])
      · exact .pure (by simp [Verdict.other])
    | false =>
      simp only [Bool.or_false, Bool.false_eq_true, if_false]
      split
      · next tagged =>
        refine .mono (deepConstMembers_applies permitted c ready fits) fun v applies => ?_
        exact iff_of_true applies (.inr ⟨trivial, tagged⟩)
      · next untagged => exact .pure (by simp [Verdict.other, untagged])

private theorem deepConst_tells (inside : i.setting.unit.Holds .types t.id.index) :
    Yields π [] false (i.deepConst (i.judgeWithin n) t) fun v =>
      v.Means (¬ i.Fails [] (.type .deepConst t false) ∨ i.IsTaggedDeepConst t)
        (¬ i.Fails [] (.type .deepConst t false)) := by
  have asks : i.Answers (.none permitted) n (i.judgeWithin n) := answers_judgeWithin c _ n
  -- whether the verdict is good is known, so it is left to say when it applies
  refine .mono (.and (deepConst_yields c asks .nil inside (absurd permitted)) ?_)
    fun v told => means_of_isGood told.1 told.2
  refine .look (c.canonical_ends inside) fun t' canonical ⟨inside', _⟩ => ?_
  have same : i.setting.shape t = i.setting.shape t' := (Setting.alike_canonical canonical).shape
  refine .look (Setting.shape_ends c inside') fun shape look ⟨_, _, insideRecord⟩ => ?_
  obtain ⟨name, named, -⟩ := (Setting.typeName_ends (π := fun _ => False) c inside').answer
  have good : Yields π [] false (pure Verdict.good : Inspect Verdict) fun v =>
      v.applies = true ↔ v.sound = true ∨ i.IsTaggedDeepConst t :=
    .pure (iff_of_true rfl (.inl rfl))
  have other (untagged : ¬ i.IsTaggedDeepConst t) :
      Yields π [] false (pure Verdict.other : Inspect Verdict) fun v =>
        v.applies = true ↔ v.sound = true ∨ i.IsTaggedDeepConst t :=
    .pure (iff_of_false Bool.false_ne_true (not_or.mpr ⟨Bool.false_ne_true, untagged⟩))
  have tagged_iff : i.IsTaggedDeepConst t ↔ ∃ id, shape = .record id
      ∧ i.setting.names.isSafePtr name = false ∧ i.setting.names.isNullablePtr name = false
      ∧ i.TagsDeepConst id := by
    simp only [IsTaggedDeepConst, same, look, Setting.isSafePtr_congr same,
      Setting.isNullablePtr_congr same, Setting.isSafePtr_eq named, Setting.isNullablePtr_eq named,
      Except.ok.injEq]
  split
  · next notOwned => exact other (by rw [tagged_iff]; rintro ⟨id, rfl, -⟩; cases notOwned)
  split
  · exact good
  have owner : Yields π [] false (i.deepConstOwner (i.judgeWithin n) t') fun _ => True := by
    simp only [deepConstOwner, Setting.isOwningPtr_eq named, Runs.lift_ok_bind]
    split
    · refine .look (Setting.templateArg_ends c inside') fun arg? _ insideArg => ?_
      cases arg? with
      | none => exact .pure trivial
      | some arg =>
        exact .bind (asks .deepConst (insideArg arg rfl) .nil (absurd permitted))
          fun _ _ => .pure trivial
    · exact .pure trivial
  refine .bind owner fun isOwner _ => ?_
  split
  · exact good
  simp only [Setting.isSafePtr_eq named, Setting.isNullablePtr_eq named, Runs.lift_ok_bind]
  split
  · next isSafe => exact other (by simp [tagged_iff, isSafe])
  split
  · next isNullable => exact other (by simp [tagged_iff, isNullable])
  next notSafe notNullable =>
  cases shape with
  | record id =>
    refine .mono (deepConstRecord_tells permitted c (insideRecord id rfl)) fun v told => ?_
    rw [told.applies, told.sound, tagged_iff]
    simp [notSafe, notNullable]
  | templateParam => exact good
  | _ => exact other (by simp [tagged_iff])

end

-- ============================================================ every aspect

/-- A type is sound under an aspect. -/
def Good (i : Inspector) : Aspect → QualifiedType → Prop
  | .heapSafe, t => ¬ i.IsUnsafe t
  | .deterministic, t => ¬ i.Fails [] (.type .deterministic t false)
  | .stackOnly, t => i.stackOnly t = .ok true
  | .nullablePtr, t => i.IsGoodNullable t
  | .nakedStruct, t => i.IsGoodNaked t
  | .deepConst, t => ¬ i.Fails [] (.type .deepConst t false)

/-- A type is of the kind that an aspect is about. Plain questions have no kind apart from their
answer. -/
def Kind (i : Inspector) : Aspect → QualifiedType → Prop
  | .nullablePtr, t => i.setting.isNullablePtr t = .ok true
  | .nakedStruct, t => ∃ d, i.IsNaked t d
  | .deepConst, t => i.Good .deepConst t ∨ i.IsTaggedDeepConst t
  | a, t => i.Good a t

/-- What is good of a kind is of that kind. -/
theorem Kind.of_good {a : Aspect} (good : i.Good a t) : i.Kind a t := by
  cases a with
  | nullablePtr => exact good.1
  | nakedStruct =>
    obtain ⟨d, isNaked, -⟩ := good
    exact ⟨d, isNaked⟩
  | deepConst => exact .inl good
  | heapSafe | deterministic | stackOnly => exact good

private theorem means_flag {b : Bool} {good : Prop} (told : b = false ↔ ¬ good) :
    (Verdict.flag b).Means good good := by
  have sound : b = true ↔ good := by rw [← Bool.not_eq_false, told, not_not]
  exact ⟨sound, sound⟩

/-- In a fresh session every verdict says of which kind the type is, and whether it is sound. -/
theorem judgeWithin_means (permitted : π .endless) (c : i.setting.unit.Consistent) (n : Nat)
    (a : Aspect) (inside : i.setting.unit.Holds .types t.id.index) :
    Yields π [] false (i.judgeWithin n a t) fun v => v.Means (i.Kind a t) (i.Good a t) := by
  cases n with
  | zero => exact .error permitted
  | succ n =>
    have asks : i.Answers (.none permitted) n (i.judgeWithin n) := answers_judgeWithin c _ n
    cases a with
    | heapSafe =>
      refine .bind (safe_yields c asks .nil inside (absurd permitted)) fun ok told => .pure ?_
      exact means_flag (by rw [told]; exact not_not.symm)
    | deterministic =>
      refine .bind (deterministic_yields c .nil (asks.determinism (absurd permitted)) inside)
        fun ok told => ?_
      exact .pure (means_flag (by rw [told]; exact not_not.symm))
    | stackOnly =>
      refine .look (stackOnly_ends c inside) fun onStack known _ => .pure (means_flag ?_)
      show onStack = false ↔ ¬ i.stackOnly t = .ok true
      simp [known]
    | nullablePtr => exact nullablePtr_tells permitted c inside n
    | nakedStruct => exact nakedStruct_tells c (tellsKinds_judgeWithin permitted c n) inside
    | deepConst => exact deepConst_tells permitted c inside

end Inspector

end SafeDialect
