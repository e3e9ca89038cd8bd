/-
What is inside a naked struct, however deep.

A naked struct may hold other naked structs, and the check goes into them. So a record is accepted
if and only if each record that is reached through members that are naked structs has the form of
one: no base, no method that could change a member, and no member but those that are safe, nullable
pointers to something safe, or again naked structs. What is recognized as a naked struct is never
safe on its own, so none of them gets past the check unseen, and a raw pointer or a reference is
none of the three.
-/
import SafeDialect.Proofs.Classifier.ByParams
import SafeDialect.Proofs.Classifier.DeterministicChains
import SafeDialect.Proofs.Classifier.Kinds
import SafeDialect.Proofs.Classifier.Reuse

namespace SafeDialect

open Relation

-- ============================================================ the form of a naked struct

/-- A method of a naked struct: a constructor or the destructor, one that is constant, or an
assignment that is deleted, or defaulted in a record that is tagged. -/
def RecordDecl.Admits (r : RecordDecl) (f : FunctionDecl) : Prop :=
  f.kind = .destructor ∨ (∃ copyOrMove, f.kind = .constructor copyOrMove) ∨ f.isConst = true
    ∨ (f.kind = .copyAssign ∨ f.kind = .moveAssign)
      ∧ (f.isDeleted = true ∨ f.isDefaulted = true ∧ r.has .nakedStruct = true)

namespace Inspector

/-- A type that a fresh and silent classification finds safe. -/
def IsSafe (i : Inspector) (t : QualifiedType) : Prop :=
  ∃ v, (i.judge .heapSafe t).Returns .silent v ∧ v.sound = true

/-- A field of a naked struct: it is safe, a nullable pointer to something safe, or a naked struct
that is no nullable pointer. -/
inductive Suits (i : Inspector) (f : Field) : Prop where
  | safe (isSafe : i.IsSafe f.type)
  | nullable {pointee : QualifiedType} (isNullable : i.setting.isNullablePtr f.type = .ok true)
      (points : i.setting.pointee f.type = .ok (some pointee)) (isSafe : i.IsSafe pointee)
  | naked {inner : RecordId} (notNullable : i.setting.isNullablePtr f.type = .ok false)
      (isNaked : i.IsNaked f.type inner)

/-- A record with the form of a naked struct, whatever the naked structs in it look like. -/
structure WellShaped (i : Inspector) (d : RecordId) (r : RecordDecl) : Prop where
  look : i.setting.unit.record d = .ok r
  noBase : r.bases = []
  fields : ∀ f ∈ r.fields, i.Suits f
  methods : ∀ m ∈ r.methods, ∃ f, i.setting.unit.function m = .ok f ∧ r.Admits f

/-- A record has a member that is a naked struct and no nullable pointer. -/
def HoldsNaked (i : Inspector) (outer inner : RecordId) : Prop :=
  ∃ r f, i.setting.unit.record outer = .ok r ∧ f ∈ r.fields
    ∧ i.setting.isNullablePtr f.type = .ok false ∧ i.IsNaked f.type inner

variable {i : Inspector} {t : QualifiedType} {d inner : RecordId} {r : RecordDecl} {f : Field}

private theorem isNakedMethod_iff {m : FunctionDecl} : isNakedMethod r m = true ↔ r.Admits m := by
  unfold isNakedMethod RecordDecl.Admits
  cases m.kind <;> simp [or_assoc]

-- ============================================================ what is never safe

/-- A naked struct may only live on the stack, whether or not it is named like a nullable
pointer. -/
theorem IsNaked.stackOnly (isNaked : i.IsNaked t d) {nullable : Bool}
    (known : i.setting.isNullablePtr t = .ok nullable) : i.stackOnly t = .ok true := by
  obtain ⟨found, r, look, tagged⟩ := isNaked
  obtain ⟨id, shape, -⟩ := Setting.eq_of_definedRecordOf found
  have isRecord : i.setting.shape t = .ok (.record id) := shape
  unfold Inspector.stackOnly
  rw [isRecord, ok_bind]
  cases nullable with
  | true =>
    simp only [known, ok_bind]
    rfl
  | false =>
    simp only [known, ok_bind, found, look, tagged]
    rfl

section Safety

variable {typeRank : TypeId → Nat} (c : i.setting.unit.Consistent)
  (inside : i.setting.unit.Holds .types t.id.index)
include c inside

private theorem isSafe_iff (ranked : i.setting.unit.Ranked typeRank) :
    i.IsSafe t ↔ ¬ i.IsUnsafe t := by
  have yields : Yields (fun _ => False) [] false (i.judge .heapSafe t) fun v =>
      v.sound = false ↔ i.IsUnsafe t :=
    judge_yields c (.ofRank ranked) .heapSafe inside nofun
  constructor
  · intro ⟨v, returns, sound⟩ isUnsafe
    rw [(yields.of_returns returns).mpr isUnsafe] at sound
    cases sound
  · intro notUnsafe
    obtain ⟨v, returns⟩ := yields.returns .silent
    refine ⟨v, returns, ?_⟩
    by_contra unsound
    rw [Bool.not_eq_true] at unsound
    exact notUnsafe ((yields.of_returns returns).mp unsound)

private theorem isUnsafe_of_stackOnly (onStack : i.stackOnly t = .ok true) : i.IsUnsafe t := by
  obtain ⟨t', canonical, inside', -⟩ :=
    (c.canonical_ends (π := fun _ => False) inside).answer
  have same := (Setting.alike_canonical (s := i.setting) canonical).shape
  obtain ⟨shape, look, -⟩ := (Setting.shape_ends (π := fun _ => False) c inside').answer
  obtain ⟨name, named, -⟩ := (Setting.typeName_ends (π := fun _ => False) c inside').answer
  rw [stackOnly_congr same] at onStack
  unfold IsUnsafe
  rw [fails_type_iff, ruling_type canonical]
  simp only [typeRuling, safeRuling, look, named, onStack, ok_bind, if_true]
  exact failsBy_rejected

/-- A naked struct is not safe by itself. -/
theorem IsNaked.isUnsafe (isNaked : i.IsNaked t d) : i.IsUnsafe t := by
  obtain ⟨nullable, known, -⟩ := (Setting.isNullablePtr_ends (π := fun _ => False) c inside).answer
  exact isUnsafe_of_stackOnly c inside (isNaked.stackOnly known)

private theorem isGoodNullable_iff (ranked : i.setting.unit.Ranked typeRank) :
    i.IsGoodNullable t ↔ i.setting.isNullablePtr t = .ok true
      ∧ ∃ pointee, i.setting.pointee t = .ok (some pointee) ∧ i.IsSafe pointee := by
  unfold IsGoodNullable PointsUnsafely
  refine and_congr_right fun _ => ?_
  simp only [not_forall, exists_prop]
  refine exists_congr fun pointee => and_congr_right fun points => ?_
  have insideP := Setting.pointee_ends (π := fun _ => False) c inside
  rw [points] at insideP
  exact (isSafe_iff c (insideP pointee rfl) ranked).symm

end Safety

-- ============================================================ one record

section Shape

variable {typeRank : TypeId → Nat} (c : i.setting.unit.Consistent)
  (ranked : i.setting.unit.Ranked typeRank)
include c ranked

/-- What is wrong with a field that does not suit: it is not safe, and neither a nullable pointer to
something safe nor recognized as a naked struct. -/
theorem not_suits_iff (inside : i.setting.unit.Holds .types f.type.id.index) :
    ¬ i.Suits f ↔ i.IsUnsafe f.type ∧ ¬ i.IsGoodNullable f.type
      ∧ (i.setting.isNullablePtr f.type = .ok true ∨ ∀ inner, ¬ i.IsNaked f.type inner) := by
  obtain ⟨nullable, known, -⟩ := (Setting.isNullablePtr_ends (π := fun _ => False) c inside).answer
  rw [isGoodNullable_iff c inside ranked]
  constructor
  · intro unsuited
    refine ⟨?_, ?_, ?_⟩
    · by_contra notUnsafe
      exact unsuited (.safe ((isSafe_iff c inside ranked).mpr notUnsafe))
    · intro ⟨isNullable, pointee, points, isSafe⟩
      exact unsuited (.nullable isNullable points isSafe)
    · cases nullable with
      | true => exact .inl known
      | false => exact .inr fun inner isNaked => unsuited (.naked known isNaked)
  · intro ⟨isUnsafe, notGood, notNaked⟩ suits
    cases suits with
    | safe isSafe => exact (isSafe_iff c inside ranked).mp isSafe isUnsafe
    | nullable isNullable points isSafe => exact notGood ⟨isNullable, _, points, isSafe⟩
    | naked notNullable isNaked =>
      rcases notNaked with isNullable | notNaked
      · cases notNullable.symm.trans isNullable
      · exact notNaked _ isNaked

/-- A record that is not misshapen has the form of a naked struct. -/
theorem wellShaped_of_not_misshapen (look : i.setting.unit.record d = .ok r)
    (fine : ¬ i.Misshapen d) : i.WellShaped d r := by
  have fits := c.fits_of_record look
  refine ⟨look, ?_, ?_, ?_⟩
  · by_contra derives
    exact fine (.base look derives)
  · intro f mem
    by_contra unsuited
    obtain ⟨isUnsafe, notGood, notNaked⟩ := (not_suits_iff c ranked (fits.fields f mem)).mp unsuited
    exact fine (.field look mem isUnsafe notGood notNaked)
  · intro m mem
    obtain ⟨f, found, -⟩ := (c.function_ends (π := fun _ => False) (fits.methods m mem)).answer
    refine ⟨f, found, ?_⟩
    rw [← isNakedMethod_iff]
    by_contra bad
    exact fine (.method look mem found (Bool.eq_false_iff.mpr bad))

omit ranked in
/-- The naked structs in a record that is not misshapen are not misshapen. -/
theorem HoldsNaked.not_misshapen (holds : i.HoldsNaked d inner) (fine : ¬ i.Misshapen d) :
    ¬ i.Misshapen inner := by
  obtain ⟨r, f, look, mem, notNullable, isNaked⟩ := holds
  have isUnsafe : i.IsUnsafe f.type := isNaked.isUnsafe c ((c.fits_of_record look).fields f mem)
  intro misshapen
  refine fine (.naked look mem isUnsafe ?_ isNaked misshapen)
  intro good
  cases notNullable.symm.trans good.1

-- ============================================================ all depths

/-- From a misshapen record one is reached that has not the form of a naked struct itself. -/
theorem Misshapen.exists_reached (misshapen : i.Misshapen d) :
    ∃ inner, ReflTransGen i.HoldsNaked d inner ∧ ∀ r, ¬ i.WellShaped inner r := by
  induction misshapen with
  | @base d r look derives =>
    refine ⟨d, .refl, ?_⟩
    intro r' shaped
    cases look.symm.trans shaped.look
    exact derives shaped.noBase
  | @method d r m f look mem found bad =>
    refine ⟨d, .refl, ?_⟩
    intro r' shaped
    cases look.symm.trans shaped.look
    obtain ⟨f', found', admits⟩ := shaped.methods m mem
    cases found.symm.trans found'
    rw [isNakedMethod_iff.mpr admits] at bad
    cases bad
  | @field d r f look mem isUnsafe notGood notNaked =>
    refine ⟨d, .refl, ?_⟩
    intro r' shaped
    cases look.symm.trans shaped.look
    have inside := (c.fits_of_record look).fields f mem
    exact (not_suits_iff c ranked inside).mpr ⟨isUnsafe, notGood, notNaked⟩ (shaped.fields f mem)
  | @naked d inner r f look mem isUnsafe notGood isNaked _ ih =>
    have inside := (c.fits_of_record look).fields f mem
    obtain ⟨nullable, known, -⟩ :=
      (Setting.isNullablePtr_ends (π := fun _ => False) c inside).answer
    cases nullable with
    | true =>
      -- a nullable pointer is not looked into, and this one is bad as it stands
      refine ⟨d, .refl, ?_⟩
      intro r' shaped
      cases look.symm.trans shaped.look
      exact (not_suits_iff c ranked inside).mpr ⟨isUnsafe, notGood, .inl known⟩
        (shaped.fields f mem)
    | false =>
      obtain ⟨last, reached, unshaped⟩ := ih
      exact ⟨last, .head ⟨r, f, look, mem, known, isNaked⟩ reached, unshaped⟩

/-- A record is not misshapen if and only if everything reached through its naked structs has the
form of one. -/
theorem not_misshapen_iff_reached (inside : i.setting.unit.Holds .records d.index) :
    ¬ i.Misshapen d ↔ ∀ inner, ReflTransGen i.HoldsNaked d inner → ∃ r, i.WellShaped inner r := by
  constructor
  · intro fine inner reached
    have each : i.setting.unit.Holds .records inner.index ∧ ¬ i.Misshapen inner := by
      induction reached with
      | refl => exact ⟨inside, fine⟩
      | tail _ holds ih =>
        refine ⟨?_, holds.not_misshapen c ih.2⟩
        obtain ⟨_, _, _, _, _, _, r, look, _⟩ := holds
        exact TranslationUnit.holds_of_entry look
    obtain ⟨r, look, -⟩ := (c.record_ends (π := fun _ => False) each.1).answer
    exact ⟨r, wellShaped_of_not_misshapen c ranked look each.2⟩
  · intro all misshapen
    obtain ⟨inner, reached, unshaped⟩ := misshapen.exists_reached c ranked
    obtain ⟨r, shaped⟩ := all inner reached
    exact unshaped r shaped

/-- A field that suits is neither a raw pointer nor a reference. -/
theorem Suits.shape (suits : i.Suits f) (inside : i.setting.unit.Holds .types f.type.id.index)
    (names : i.setting.names.NamesRecords) :
    i.setting.isRawPointer f.type = .ok false ∧ i.setting.isReference f.type = .ok false := by
  obtain ⟨shape, look, -⟩ := (Setting.shape_ends (π := fun _ => False) c inside).answer
  have suited : shape.isPointer = false ∧ shape.isReference = false := by
    by_contra pointing
    have onStack : i.stackOnly f.type = .ok true := by
      unfold Inspector.stackOnly
      rw [look, ok_bind]
      cases shape <;> first | rfl | exact absurd ⟨rfl, rfl⟩ pointing
    have noRecord : shape.isRecord = false := by
      cases shape <;> first | rfl | exact absurd ⟨rfl, rfl⟩ pointing
    revert suits
    rw [imp_false, not_suits_iff c ranked inside]
    have notNullable : i.setting.isNullablePtr f.type = .ok false := by
      rw [Setting.isNullablePtr_eq (Setting.typeName_of_shape look noRecord), names.2]
    refine ⟨isUnsafe_of_stackOnly c inside onStack, ?_, .inr ?_⟩
    · intro good
      cases notNullable.symm.trans good.1
    · intro inner isNaked
      obtain ⟨id, isRecord, -⟩ := Setting.eq_of_definedRecordOf isNaked.1
      cases look.symm.trans isRecord
      cases noRecord
  simp only [Setting.isRawPointer, Setting.isReference, look, ok_bind, suited]
  exact ⟨rfl, rfl⟩

end Shape

/-- A fresh check of a record as a naked struct answers. It accepts if and only if the record has a
definition and every record that is reached from it, through any number of members that are naked
structs and no nullable pointers, has the form of a naked struct. So no field of a record that is
reached from an accepted one is a raw pointer or a reference. The vocabulary may be any that names
records only, as that of every naming scheme does. -/
theorem nakedRecord_accepts_iff_reached {u : TranslationUnit}
    (consistent : u.inconsistency? = none) (types : u.TypesFounded) (naked : u.NakedFounded)
    (config : Config) (names : config.vocabulary.NamesRecords) :
    ∃ s, Setting.of u config = .ok s ∧
      ∀ (i : Inspector) (voice : Voice) (id : RecordId), i.setting = s → u.Holds .records id.index →
        ∃ accepted, (i.nakedRecord i.judge id).Returns voice accepted
          ∧ (accepted = true ↔ ∃ d, s.definedRecord id = .ok (some d)
            ∧ ∀ inner, ReflTransGen i.HoldsNaked d inner → ∃ r, i.WellShaped inner r)
          ∧ (accepted = true → ∃ d, s.definedRecord id = .ok (some d)
            ∧ ∀ inner, ReflTransGen i.HoldsNaked d inner →
              ∃ r, u.record inner = .ok r ∧ ∀ f ∈ r.fields,
                s.isRawPointer f.type = .ok false ∧ s.isReference f.type = .ok false) := by
  have c := TranslationUnit.inconsistency?_eq_none_iff.mp consistent
  obtain ⟨s, setting, rfl, rfl⟩ := (Setting.of_ends c config).answer
  obtain ⟨typeRank, ranked⟩ := c.exists_ranked types
  obtain ⟨nakedRank, nakedRanked⟩ := TranslationUnit.exists_nakedRanked naked
  refine ⟨s, setting, ?_⟩
  rintro i voice id rfl inside
  let bound : Bound (fun _ => False) i.setting.unit := ⟨typeRank, nakedRank, fun _ => ranked⟩
  have ends : Yields (fun _ => False) [] false (i.nakedRecord i.judge id) fun _ => True :=
    nakedRecord_restores c bound inside fun _ => nakedRanked
  -- what the answer tells is known of every answer there is, also in units that contain themselves
  have tells : Yields (fun _ => True) [] false (i.nakedRecord i.judge id) _ :=
    nakedRecord_tells c (tellsKinds_judgeWithin trivial c i.depth) inside
  obtain ⟨accepted, returns⟩ := ends.returns voice
  have accepts : accepted = true ↔ ∃ d, i.setting.definedRecord id = .ok (some d)
      ∧ ∀ inner, ReflTransGen i.HoldsNaked d inner → ∃ r, i.WellShaped inner r := by
    rw [tells.of_returns returns]
    refine exists_congr fun d => and_congr_right fun known => ?_
    have insideD := Setting.definedRecord_ends (π := fun _ => False) c inside
    rw [known] at insideD
    exact not_misshapen_iff_reached c ranked (insideD d rfl)
  refine ⟨accepted, returns, accepts, ?_⟩
  intro isAccepted
  obtain ⟨d, known, shaped⟩ := accepts.mp isAccepted
  refine ⟨d, known, ?_⟩
  intro inner reached
  obtain ⟨r, wellShaped⟩ := shaped inner reached
  refine ⟨r, wellShaped.look, ?_⟩
  intro f mem
  have insideF := (c.fits_of_record wellShaped.look).fields f mem
  exact (wellShaped.fields f mem).shape c ranked insideF names

end Inspector

/-- A unit with a naked struct in another one:

    struct [[naked_struct]] Slot { safememory::nullable_ptr<int> item; int age; };
    struct [[naked_struct]] Cursor {
      Slot current;
      int step;
      int position() const;
      Cursor& operator=(const Cursor&) = delete;
    };

The assignment is listed without its parameter. -/
def TranslationUnit.cursors : TranslationUnit where
  files := #[⟨"cursors.cpp", false⟩]
  types := ⟨#[.builtin .int, .record ⟨0⟩, .record ⟨1⟩, .record ⟨2⟩, .lvalueReference ⟨⟨3⟩, false⟩]⟩
  scopes := #[
    { name := none, kind := .translationUnit, parent := none, attributes := .empty },
    { name := some "safememory", kind := .nameSpace, parent := some ⟨0⟩, attributes := .empty },
    { name := some "Cursor", kind := .record ⟨2⟩, parent := some ⟨0⟩, attributes := .empty }]
  records := #[
    { RecordDecl.declared "nullable_ptr" ⟨1⟩ .unknown with
      templateArgs := [.type ⟨⟨0⟩, false⟩] },
    { RecordDecl.declared "Slot" ⟨0⟩ .unknown with
      definition := some ⟨[⟨"item", ⟨⟨1⟩, false⟩, .unknown, false⟩,
        ⟨"age", ⟨⟨0⟩, false⟩, .unknown, false⟩], [], []⟩
      attributes := .ofList [.nakedStruct] },
    { RecordDecl.declared "Cursor" ⟨0⟩ .unknown with
      definition := some ⟨[⟨"current", ⟨⟨2⟩, false⟩, .unknown, false⟩,
        ⟨"step", ⟨⟨0⟩, false⟩, .unknown, false⟩], [], [⟨0⟩, ⟨1⟩]⟩
      attributes := .ofList [.nakedStruct] }]
  functions := #[
    { FunctionDecl.declared "position" ⟨2⟩ .unknown .method ⟨⟨0⟩, false⟩ with
      parent := some ⟨2⟩
      isConst := true },
    { FunctionDecl.declared "operator=" ⟨2⟩ .unknown .copyAssign ⟨⟨4⟩, false⟩ with
      parent := some ⟨2⟩
      isDeleted := true }]
  vars := #[]
  statements := #[]

open TranslationUnit in
/-- The cursor is accepted, and the slot in it is reached and has the form of a naked struct. -/
theorem cursor_accepts_reached :
    cursors.inconsistency? = none ∧ cursors.TypesFounded ∧ cursors.NakedFounded
    ∧ Config.default.vocabulary.NamesRecords ∧ cursors.Holds .records 2
    ∧ ∃ s, Setting.of cursors (.of .default .empty) = .ok s ∧
      let i : Inspector := ⟨s, false⟩
      (i.nakedRecord i.judge ⟨2⟩).Returns (.speaking .error) true
      ∧ i.HoldsNaked ⟨2⟩ ⟨1⟩ ∧ ∃ r, i.WellShaped ⟨1⟩ r := by
  have consistent : cursors.inconsistency? = none := by decide
  have types := (inconsistency?_eq_none_iff.mp consistent).typesFounded (by decide)
  have naked : cursors.NakedFounded := nakedFounded (by decide)
  have names := Vocabulary.namesRecords_ofScheme Options.default.policy
  obtain ⟨s, setting, all⟩ :=
    Inspector.nakedRecord_accepts_iff_reached consistent types naked .default names
  obtain ⟨accepted, ⟨session, run⟩, accepts, -⟩ :=
    all ⟨s, false⟩ (.speaking .error) ⟨2⟩ rfl (by decide)
  -- the setting of this unit, with what it takes to evaluate in it
  obtain ⟨s', setting', known', ⟨session', run'⟩, holds⟩ : ∃ s,
      Setting.of cursors (.of .default .empty) = .ok s ∧ s.definedRecord ⟨2⟩ = .ok (some ⟨2⟩)
      ∧ ((Inspector.mk s false).nakedRecord (Inspector.mk s false).judge ⟨2⟩).Returns
        (.speaking .error) true
      ∧ (Inspector.mk s false).HoldsNaked ⟨2⟩ ⟨1⟩ :=
    ⟨_, rfl, rfl, ⟨_, rfl⟩, _, _, rfl, List.mem_cons_self, rfl, rfl, _, rfl, rfl⟩
  cases setting.symm.trans setting'
  cases run.symm.trans run'
  obtain ⟨d, known, shaped⟩ := accepts.mp rfl
  cases known.symm.trans known'
  exact ⟨consistent, types, naked, names, by decide, s, setting, ⟨session, run⟩, holds,
    shaped _ (.single holds)⟩

end SafeDialect
