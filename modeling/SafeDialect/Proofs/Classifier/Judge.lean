/-
Every question is answered as the chains of questions demand.

The step lemma is that of `assess`: if the parts of a type are asked with the promise, the type is
answered with it, with one more level of depth. So every depth keeps the promise, and the depth of a
whole classification is enough for every question about a unit in which nothing contains itself.
-/
import Mathlib.Tactic.Ring
import SafeDialect.Proofs.Classifier.Container
import SafeDialect.Proofs.Classifier.DeepConst

namespace SafeDialect.Inspector

open Inspect

variable {π : Fault → Prop} {i : Inspector} {P : List (Aspect × RecordId)} {sys : Bool}
  {t : QualifiedType} {id defined : RecordId} {r : RecordDecl} {b : Bound π i.setting.unit}
  {n : Nat} {ask : Ask} (c : i.setting.unit.Consistent)
include c

-- ============================================================ safety

section Safety

variable (asks : i.Answers b n ask) (ready : i.setting.unit.Ready P)
include asks ready

/-- A union is asked about its primitives, another record about its fields and bases. -/
private theorem safeMembers_yields {entered : Bool}
    (covers : ¬ π .endless → i.setting.unit.room P + i.setting.unit.types.size ≤ n)
    (known : i.setting.definedRecord id = .ok (some id))
    (look : i.setting.unit.record id = .ok r) (fits : r.Fits i.setting.unit) :
    Yields π P sys (i.safeMembers ask entered id) fun ok => ok = false ↔
      (r.isUnion ∧ i.holdsPrimitives r = .ok false)
        ∨ (¬ r.isUnion ∧ ∃ q ∈ r.memberTypes.map (.type .heapSafe · sys), i.Fails P q) := by
  have member {t : QualifiedType} (inside : i.setting.unit.Holds .types t.id.index) :
      Yields π P sys (do return (← ask .heapSafe t).sound) fun ok =>
        ok = false ↔ i.Fails P (.type .heapSafe t sys) :=
    .bind (asks.safe inside ready (b.affords_member covers inside)) fun _ told => .pure told
  simp only [safeMembers, look, Runs.lift_ok_bind, exists_fails_member]
  split
  · next union =>
    refine .mono (unionRecord_yields c known look fits) fun ok holds => ?_
    simp [union, holds]
  · next notUnion =>
    refine .mono (.allFieldsAndBases (fun f mem => member (fits.fields f mem))
      fun f mem => member (fits.bases f mem)) fun ok told => ?_
    simp [notUnion, told]

private theorem safeDefined_yields
    (covers : ¬ π .endless → i.setting.unit.room P + i.setting.unit.types.size ≤ n)
    (known : i.setting.definedRecord id = .ok (some defined))
    (inside : i.setting.unit.Holds .records defined.index) :
    Yields π P sys (i.safeDefined ask defined) fun ok =>
      ok = false ↔ i.FailsBy P (i.safeRecordRuling sys defined) := by
  obtain ⟨r, look, fits⟩ := (c.record_ends inside).answer
  obtain ⟨name, named, -⟩ := (c.recordName_ends inside).answer
  obtain ⟨isSystem, knownSystem, -⟩ := (Setting.isSystemRecord_ends c inside).answer
  obtain ⟨holds, knownHolds, -⟩ := (holdsPrimitives_ends c fits).answer
  simp only [safeDefined, safeRecordRuling, look, named, knownSystem, knownHolds, ok_bind,
    Runs.lift_ok_bind]
  split
  · exact .pure accepted_iff
  split
  · exact .bind .remarkOnMember fun _ _ => .pure rejected_iff
  refine .inside fun entered => ?_
  refine .mono (safeMembers_yields c asks ready covers (definedRecord_self known) look fits)
    fun ok told => ?_
  rw [told]
  cases union : r.isUnion <;> cases holds <;> simp [knownHolds]

/-- A record with no definition fails, and else the record that defines it is asked about with the
guard up. -/
theorem safeRecord_yields (inside : i.setting.unit.Holds .records id.index)
    (covers : ¬ π .endless → i.setting.unit.room P ≤ n) :
    Yields π P sys (i.safeRecord ask id) fun ok =>
      ok = false ↔ i.Fails P (.record .heapSafe id sys) := by
  refine guardedRecord_yields (· = false) c (by decide) ready inside nofun rfl
    fun defined known insideDefined ready' => ?_
  refine safeDefined_yields c asks ready' (fun strict => ?_) known insideDefined
  rw [ready'.room_cons]
  exact covers strict

section

variable (inside : i.setting.unit.Holds .types t.id.index)
  (covers : ¬ π .endless → i.setting.unit.room P + b.typeRank t.id ≤ n)
include inside covers

/-- A smart pointer fails by what it points to. -/
private theorem safePointee_yields : Yields π P sys (i.safePointee ask t) fun ok =>
    ok = false ↔ i.FailsBy P (i.pointerRuling sys t) := by
  refine .look (Setting.pointee_ends c inside) fun r found insideP => ?_
  simp only [pointerRuling, found, ok_bind]
  cases r with
  | none => exact .pure rejected_iff
  | some pointee =>
    refine .bind (asks.safe (insideP pointee rfl) ready (b.affords_pointee covers found))
      fun v told => .pure ?_
    simpa using told

/-- A compound type fails by the ruling on its layer and name. -/
private theorem safeCompound_yields {shape : TypeShape} {name : String}
    (named : i.setting.typeName t = .ok name)
    (insideRecord : ∀ id, shape = .record id → i.setting.unit.Holds .records id.index) :
    Yields π P sys (i.safeCompound ask t shape) fun ok =>
      ok = false ↔ i.FailsBy P (i.compoundRuling sys t shape name) := by
  simp only [safeCompound, compoundRuling, vector, hashmap_eq named, named,
    Setting.isSafePtr_eq named, Runs.lift_ok_bind]
  by_cases isVector : i.setting.names.vector.contains name = true
  · simp only [isVector, if_true, bind_assoc, pure_bind]
    exact .bind (vectorArg_yields c asks ready inside covers) fun ok told => .pure told
  simp only [isVector, Bool.false_eq_true, if_false, pure_bind, Verdict.other]
  by_cases isMap : (i.setting.names.hashmapRules && i.setting.names.hashmap.contains name) = true
  · simp only [isMap, if_true, bind_assoc, pure_bind]
    exact .bind (hashmapArgs_yields c asks ready inside covers) fun ok told => .pure told
  simp only [isMap, Bool.false_eq_true, if_false, pure_bind]
  by_cases isPtr : i.setting.names.isSafePtr name = true
  · simp only [isPtr, if_true]
    exact safePointee_yields c asks ready inside covers
  simp only [isPtr, Bool.false_eq_true, if_false]
  cases shape with
  | record id =>
    refine .mono (safeRecord_yields c asks ready (insideRecord id rfl) fun strict => ?_)
      fun ok told => ?_
    · exact Nat.le_trans (Nat.le_add_right _ _) (covers strict)
    · simpa using told
  | templateParam => exact .pure accepted_iff
  | _ => exact .pure rejected_iff

/-- The verdict on safety is the ruling on the type, worked out with the answers about parts. -/
theorem safe_yields : Yields π P sys (i.safe ask t) fun ok =>
    ok = false ↔ i.Fails P (.type .heapSafe t sys) := by
  refine .look (c.canonical_ends inside) fun t' canonical ⟨inside', _⟩ => ?_
  have covers' := b.covers_canonical covers canonical
  obtain ⟨shape, look, _, _, insideRecord⟩ := (Setting.shape_ends c inside').answer
  obtain ⟨name, named, -⟩ := (Setting.typeName_ends c inside').answer
  obtain ⟨onStack, knownStack, -⟩ := (stackOnly_ends c inside').answer
  obtain ⟨awaitable, knownAwaitable, -⟩ := (Setting.isAwaitable_ends c inside').answer
  simp only [fails_type_iff, ruling_type canonical, typeRuling, safeRuling, look, named, knownStack,
    knownAwaitable, ok_bind, Runs.lift_ok_bind]
  split
  · exact .pure rejected_iff
  split
  · exact .pure accepted_iff
  split
  · exact .pure rejected_iff
  exact safeCompound_yields c asks ready inside' covers' named insideRecord

end

end Safety

-- ============================================================ determinism

section Determinism

/-- Determinism is asked about with the promise, whatever the type and the place. -/
def AnswersDeterminism (i : Inspector) (π : Fault → Prop) (P : List (Aspect × RecordId))
    (ask : Ask) : Prop :=
  ∀ {t : QualifiedType} {sys : Bool}, i.setting.unit.Holds .types t.id.index →
    Yields π P sys (ask .deterministic t) fun v =>
      v.sound = false ↔ i.Fails P (.type .deterministic t sys)

/-- A record passes by its name, as a union with an initialized member, or by its members that have
no initializer. -/
private theorem deterministicDefined_yields (asks : i.AnswersDeterminism π P ask)
    (inside : i.setting.unit.Holds .records defined.index) :
    Yields π P sys (i.deterministicDefined ask defined) fun ok =>
      ok = false ↔ i.FailsBy P (i.deterministicRecordRuling sys defined) := by
  obtain ⟨r, look, fits⟩ := (c.record_ends inside).answer
  obtain ⟨name, named, -⟩ := (c.recordName_ends inside).answer
  obtain ⟨isSystem, knownSystem, -⟩ := (Setting.isSystemRecord_ends c inside).answer
  simp only [deterministicDefined, deterministicRecordRuling, look, named, knownSystem, ok_bind,
    Runs.lift_ok_bind]
  split
  · exact .pure accepted_iff
  refine .inside fun entered => ?_
  have member {t : QualifiedType} (inside : i.setting.unit.Holds .types t.id.index) :
      Yields π P (sys || isSystem) (do return (← ask .deterministic t).sound) fun ok =>
        ok = false ↔ i.Fails P (.type .deterministic t (sys || isSystem)) :=
    .bind (asks inside) fun _ told => .pure told
  split
  · cases initialized : r.fields.any (·.hasInitializer)
    · exact .pure rejected_iff
    · exact .pure accepted_iff
  · rw [failsBy_rests, exists_fails_uninitialized]
    refine .allFieldsAndBases (fun f mem => ?_) fun f mem => member (fits.bases f mem)
    split
    · next initialized => exact .pure (by simp [initialized])
    · next bare => exact .mono (member (fits.fields f mem)) fun ok told => by simp [bare, told]

private theorem isDeterministicKind_ends (inside : i.setting.unit.Holds .types t.id.index) :
    Ends π (i.isDeterministicKind t) fun _ => True := by
  refine .bind (Setting.isAwaitable_ends c inside) fun _ _ => ?_
  split
  · exact .pure trivial
  refine .bind (Setting.isLambda_ends c inside) fun _ _ => ?_
  split
  · exact .pure trivial
  refine .bind (Setting.isSafePtr_ends c inside) fun _ _ => ?_
  split
  · exact .pure trivial
  exact Setting.isNullablePtr_ends c inside

section

-- members are asked about while one more record is in progress
variable (ready : i.setting.unit.Ready P)
  (asks : ∀ k, i.setting.unit.Ready (k :: P) → i.AnswersDeterminism π (k :: P) ask)
include ready asks

/-- A record is asked about with the guard up. -/
theorem deterministicRecord_yields (inside : i.setting.unit.Holds .records id.index) :
    Yields π P sys (i.deterministicRecord ask id) fun ok =>
      ok = false ↔ i.Fails P (.record .deterministic id sys) := by
  refine guardedRecord_yields (· = false) c (by decide) ready inside nofun rfl
    fun defined _ insideDefined ready' => ?_
  exact deterministicDefined_yields c (asks _ ready') insideDefined

/-- The verdict on determinism is the ruling on the type. -/
theorem deterministic_yields (inside : i.setting.unit.Holds .types t.id.index) :
    Yields π P sys (i.deterministic ask t) fun ok =>
      ok = false ↔ i.Fails P (.type .deterministic t sys) := by
  refine .look (c.canonical_ends inside) fun t' canonical ⟨inside', _⟩ => ?_
  obtain ⟨shape, look, _, _, insideRecord⟩ := (Setting.shape_ends c inside').answer
  obtain ⟨byKind, knownKind, -⟩ := (isDeterministicKind_ends c inside').answer
  simp only [fails_type_iff, ruling_type canonical, typeRuling, deterministicRuling, look,
    knownKind, ok_bind, Runs.lift_ok_bind]
  split
  · exact .pure accepted_iff
  split
  · exact .pure rejected_iff
  split
  · exact .pure accepted_iff
  cases shape with
  | record id =>
    refine .mono (deterministicRecord_yields c ready asks (insideRecord id rfl)) fun ok told => ?_
    simpa using told
  | templateParam => exact .pure accepted_iff
  | _ => exact .pure rejected_iff

end

omit c in
/-- A depth that covers the records which may still come is enough for every member. -/
theorem Answers.determinism (asks : i.Answers b n ask)
    (covers : ¬ π .endless → i.setting.unit.room P ≤ n) (k : Aspect × RecordId)
    (ready : i.setting.unit.Ready (k :: P)) : i.AnswersDeterminism π (k :: P) ask := by
  intro t sys inside
  refine asks.deterministic inside ready (b.affords_member (fun strict => ?_) inside)
  rw [ready.room_cons]
  exact covers strict

end Determinism

-- ============================================================ every aspect

/-- One level: a type is answered with the promise if its parts are. -/
theorem answers_assess (asks : i.Answers b n ask) : i.Answers b (n + 1) (i.assess ask) := by
  intro P sys a t inside ready affords
  have covers (h : a ∈ Aspect.guarded) (strict : ¬ π .endless) :
      i.setting.unit.room P + b.typeRank t.id ≤ n := by
    have enough := affords strict
    simp only [Aspect.guarded, List.mem_cons, List.not_mem_nil, or_false] at h
    rcases h with rfl | rfl | rfl <;> exact Nat.lt_succ_iff.mp enough
  cases a with
  | heapSafe =>
    exact .bind (safe_yields c asks ready inside (covers (by decide))) fun _ told => .pure told
  | deterministic =>
    refine .bind (deterministic_yields c ready (asks.determinism fun strict => ?_) inside)
      fun _ told => .pure told
    exact Nat.le_trans (Nat.le_add_right _ _) (covers (by decide) strict)
  | stackOnly => exact .look (stackOnly_ends c inside) fun _ _ _ => .pure trivial
  | nullablePtr => exact nullablePtr_yields c asks ready inside affords
  | nakedStruct => exact nakedStruct_yields c asks ready inside affords
  | deepConst => exact deepConst_yields c asks ready inside (covers (by decide))

/-- Every depth keeps the promise: without depth no question is afforded. -/
theorem answers_judgeWithin (b : Bound π i.setting.unit) (n : Nat) :
    i.Answers b n (i.judgeWithin n) := by
  induction n with
  | zero =>
    intro P sys a t inside ready affords
    by_cases permitted : π .endless
    · exact .error permitted
    -- every question takes some depth, whatever its aspect
    · have enough := affords permitted
      cases a with
      | nakedStruct => exact absurd enough.2.1 (Nat.not_lt_zero _)
      | heapSafe | deterministic | stackOnly | nullablePtr | deepConst =>
        exact absurd enough (Nat.not_lt_zero _)
  | succ n ih => exact answers_assess c ih

omit c in
/-- The depth of a classification is more than any question takes. -/
theorem room_lt_depth (i : Inspector) : i.setting.unit.room [] + i.setting.unit.types.size
    + i.setting.unit.records.size + 1 < i.depth := by
  have product : i.depth = i.setting.unit.room [] + 3 * i.setting.unit.types.size
      + 6 * i.setting.unit.records.size + 6 := by
    unfold depth TranslationUnit.room
    rw [List.length_nil, Nat.sub_zero]
    ring
  omega

omit c in
/-- A fresh classification affords every question that nests with a rank. -/
theorem affords_depth (a : Aspect) (inside : i.setting.unit.Holds .types t.id.index)
    (naked : a = .nakedStruct → i.setting.unit.NakedRanked b.nakedRank) (strict : ¬ π .endless) :
    b.Affords i.depth [] a t := by
  have room := room_lt_depth i
  have below := (b.ranked strict).lt_size _ inside
  cases a with
  | heapSafe | deterministic | deepConst =>
    show i.setting.unit.room [] + b.typeRank t.id < i.depth
    omega
  | stackOnly =>
    show 0 < i.depth
    omega
  | nullablePtr =>
    show i.setting.unit.room [] + i.setting.unit.types.size < i.depth
    omega
  | nakedStruct =>
    refine ⟨naked rfl, by omega, fun id d r _ _ look _ => ?_⟩
    have belowRecord := (naked rfl).lt_size d (TranslationUnit.holds_of_entry look)
    omega

/-- The answer to a question asked in a fresh session. -/
theorem judge_yields (b : Bound π i.setting.unit) (a : Aspect)
    (inside : i.setting.unit.Holds .types t.id.index)
    (naked : ¬ π .endless → a = .nakedStruct → i.setting.unit.NakedRanked b.nakedRank) :
    Yields π [] false (i.judge a t) (i.Tells [] false t a) :=
  answers_judgeWithin c b i.depth a inside .nil
    fun strict => affords_depth a inside (naked strict) strict

/-- The check of a record as a naked struct in a fresh session. -/
theorem nakedRecord_restores (b : Bound π i.setting.unit) {id : RecordId}
    (inside : i.setting.unit.Holds .records id.index)
    (naked : ¬ π .endless → i.setting.unit.NakedRanked b.nakedRank) :
    Yields π [] false (i.nakedRecord i.judge id) fun _ => True := by
  refine nakedRecord_yields c (answers_judgeWithin c b i.depth) .nil inside ?_
  intro strict d r _ look f mem a _ t canonical
  have insideT := c.canonical_ends (π := fun _ => False) ((c.fits_of_record look).fields f mem)
  rw [show i.setting.unit.types.canonical f.type = .ok t from canonical] at insideT
  exact affords_depth a insideT.1 (fun _ => naked strict) strict

end SafeDialect.Inspector
