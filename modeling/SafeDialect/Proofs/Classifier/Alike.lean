/-
A verdict is about the canonical slot of a type.

Two types are alike if their synonyms end at the same slot; a `const` on top may differ. Everything
that a classification reads of a type is the layer at that slot, so it says the same about types
that are alike: the same verdict and the same remarks.
-/
import SafeDialect.Ledger
import SafeDialect.Proofs.Program.Lookup

namespace SafeDialect

namespace Setting

variable {s : Setting} {t t' r : QualifiedType}

/-- Types whose synonyms end at the same slot. -/
def Alike (s : Setting) (t t' : QualifiedType) : Prop :=
  ∃ r r', s.canonical t = .ok r ∧ s.canonical t' = .ok r' ∧ r.id = r'.id

/-- Synonyms have been followed to the end, so following them again changes nothing. -/
theorem canonical_idem (canonical : s.canonical t = .ok r) : s.canonical r = .ok r := by
  obtain ⟨shape, look, plain⟩ := TranslationUnit.plain_of_resolve canonical
  exact TranslationUnit.resolve_of_plain look plain

/-- A type is like the one that its synonyms end at. -/
theorem alike_canonical (canonical : s.canonical t = .ok r) : s.Alike t r :=
  ⟨r, r, canonical, canonical_idem canonical, rfl⟩

/-- The layer of a type is the one at its canonical slot. -/
theorem shape_eq_of_canonical (canonical : s.canonical t = .ok r) :
    s.shape t = s.unit.types.shape r.id := by
  show (s.canonical t >>= fun r => s.unit.types.shape r.id) = _
  rw [canonical]
  rfl

/-- Types that are alike have the same layer. All that follows is read off it. -/
theorem Alike.shape (alike : s.Alike t t') : s.shape t = s.shape t' := by
  obtain ⟨r, r', canonical, canonical', same⟩ := alike
  rw [shape_eq_of_canonical canonical, shape_eq_of_canonical canonical', same]

/-- Canonical types that are alike, with the types that they stand for. -/
theorem Alike.exists_canonical (alike : s.Alike t t') :
    ∃ r r', s.canonical t = .ok r ∧ s.canonical t' = .ok r' ∧ s.shape r = s.shape r' := by
  obtain ⟨r, r', canonical, canonical', same⟩ := alike
  have again : s.Alike r r' :=
    ⟨r, r', canonical_idem canonical, canonical_idem canonical', same⟩
  exact ⟨r, r', canonical, canonical', again.shape⟩

-- ============================================================ kinds

section Kinds

variable (same : s.shape t = s.shape t')
include same

/-- The record that a type is, if it is one. -/
theorem recordOf_congr : s.recordOf t = s.recordOf t' := by
  unfold recordOf
  rw [same]

private theorem definedRecordOf_congr : s.definedRecordOf t = s.definedRecordOf t' := by
  unfold definedRecordOf
  rw [recordOf_congr same]

private theorem templateArg_congr (n : Nat) : s.templateArg t n = s.templateArg t' n := by
  unfold templateArg
  rw [recordOf_congr same]

/-- What it points to, as a raw pointer or as the first argument of a wrapper. -/
theorem pointee_congr : s.pointee t = s.pointee t' := by
  unfold pointee
  rw [same, templateArg_congr same]

private theorem typeName_congr : s.typeName t = s.typeName t' := by
  unfold typeName TranslationUnit.typeName
  rw [show s.unit.types.canonicalShape t = s.unit.types.canonicalShape t' from same]

/-- Whether it is named like a smart pointer. -/
theorem isSafePtr_congr : s.isSafePtr t = s.isSafePtr t' := by
  unfold isSafePtr
  rw [typeName_congr same]

private theorem isOwningPtr_congr : s.isOwningPtr t = s.isOwningPtr t' := by
  unfold isOwningPtr
  rw [typeName_congr same]

/-- Whether it is named like a nullable pointer. -/
theorem isNullablePtr_congr : s.isNullablePtr t = s.isNullablePtr t' := by
  unfold isNullablePtr
  rw [typeName_congr same]

/-- Whether it can be awaited, by name or by attribute of its record. -/
private theorem isAwaitable_congr : s.isAwaitable t = s.isAwaitable t' := by
  unfold isAwaitable
  rw [recordOf_congr same]

private theorem isLambda_congr : s.isLambda t = s.isLambda t' := by
  unfold isLambda
  rw [recordOf_congr same]

end Kinds

-- what is no record has neither a record nor a name
section NoRecord

variable {shape : TypeShape} (look : s.shape t = .ok shape) (noRecord : shape.isRecord = false)
include look noRecord

/-- A layer that is no record leads to none. -/
theorem recordOf_of_shape : s.recordOf t = .ok none := by
  unfold recordOf
  rw [look, ok_bind]
  cases shape <;> first | rfl | cases noRecord

/-- And what is no record has the empty name. -/
theorem typeName_of_shape : s.typeName t = .ok "" := by
  unfold typeName TranslationUnit.typeName
  rw [show s.unit.types.canonicalShape t = .ok shape from look, ok_bind]
  cases shape <;> first | rfl | cases noRecord

end NoRecord

end Setting

-- ============================================================ the classifier

namespace Inspector

variable {i : Inspector} {ask : Ask} {t t' : QualifiedType}

section Layers

variable (same : i.setting.shape t = i.setting.shape t')
include same

private theorem containerLocation_congr : i.containerLocation t = i.containerLocation t' := by
  unfold containerLocation
  rw [Setting.recordOf_congr same]

/-- An argument that a container must have, and the complaint if it has none. -/
private theorem requiredArg_congr (n : Nat) : i.requiredArg t n = i.requiredArg t' n := by
  unfold requiredArg remarkAtContainer
  rw [Setting.templateArg_congr same, containerLocation_congr same]

private theorem argIsSafe_congr (n : Nat) (arg : QualifiedType) :
    i.argIsSafe ask t n arg = i.argIsSafe ask t' n arg := by
  unfold argIsSafe remarkOnArg
  rw [containerLocation_congr same]

private theorem argIsDeepConst_congr (n : Nat) (arg : QualifiedType) :
    i.argIsDeepConst ask t n arg = i.argIsDeepConst ask t' n arg := by
  unfold argIsDeepConst remarkOnArg
  rw [containerLocation_congr same]

private theorem argIsPure_congr (n : Nat) (arg : QualifiedType) :
    i.argIsPure t n arg = i.argIsPure t' n arg := by
  unfold argIsPure remarkAtContainer
  rw [containerLocation_congr same]

/-- What a container asks about its argument, with the place where it complains. -/
private theorem safeArg_congr (n : Nat) : i.safeArg ask t n = i.safeArg ask t' n := by
  unfold safeArg
  simp only [requiredArg_congr same, argIsSafe_congr same]

private theorem hashmapArgs_congr : i.hashmapArgs ask t = i.hashmapArgs ask t' := by
  unfold hashmapArgs safeDeepConstArg pureArg
  simp only [requiredArg_congr same, argIsSafe_congr same, argIsDeepConst_congr same,
    argIsPure_congr same, safeArg_congr same]

/-- The verdict on a type as a vector. -/
private theorem vector_congr : i.vector ask t = i.vector ask t' := by
  unfold vector
  rw [Setting.typeName_congr same, safeArg_congr same]

/-- The verdict on it as a hash map, with its keys and the functions that it takes. -/
private theorem hashmap_congr : i.hashmap ask t = i.hashmap ask t' := by
  unfold hashmap
  rw [Setting.typeName_congr same, hashmapArgs_congr same]

private theorem safePointee_congr : i.safePointee ask t = i.safePointee ask t' := by
  unfold safePointee
  rw [Setting.pointee_congr same]

/-- Whether a compound type is safe depends on its layer, which is given, and on its record. -/
private theorem safeCompound_congr (shape : TypeShape) :
    i.safeCompound ask t shape = i.safeCompound ask t' shape := by
  unfold safeCompound
  rw [vector_congr same, hashmap_congr same, Setting.isSafePtr_congr same, safePointee_congr same]

/-- Whether a type may only live on the stack. -/
theorem stackOnly_congr : i.stackOnly t = i.stackOnly t' := by
  unfold stackOnly
  rw [same, Setting.isNullablePtr_congr same, Setting.definedRecordOf_congr same]

/-- Whether it is a naked struct. -/
private theorem nakedStruct_congr : i.nakedStruct ask t = i.nakedStruct ask t' := by
  unfold nakedStruct
  rw [Setting.definedRecordOf_congr same]

/-- What a smart pointer owns decides whether it is deep const. -/
private theorem deepConstOwner_congr : i.deepConstOwner ask t = i.deepConstOwner ask t' := by
  unfold deepConstOwner
  rw [Setting.isOwningPtr_congr same, Setting.templateArg_congr same]

/-- Whether it is deterministic by its kind alone. -/
theorem isDeterministicKind_congr : i.isDeterministicKind t = i.isDeterministicKind t' := by
  unfold isDeterministicKind
  rw [Setting.isAwaitable_congr same, Setting.isLambda_congr same, Setting.isSafePtr_congr same,
    Setting.isNullablePtr_congr same]

end Layers

variable (alike : i.setting.Alike t t')
include alike

/-- The verdict on safety, whatever is answered about parts. -/
private theorem safe_congr : i.safe ask t = i.safe ask t' := by
  obtain ⟨r, r', canonical, canonical', same⟩ := alike.exists_canonical
  unfold safe
  rw [canonical, canonical', Runs.lift_ok_bind, Runs.lift_ok_bind, stackOnly_congr same, same,
    Setting.isAwaitable_congr same]
  simp only [safeCompound_congr same]

/-- The verdict on determinism. -/
private theorem deterministic_congr : i.deterministic ask t = i.deterministic ask t' := by
  obtain ⟨r, r', canonical, canonical', same⟩ := alike.exists_canonical
  unfold deterministic
  rw [canonical, canonical', Runs.lift_ok_bind, Runs.lift_ok_bind, same,
    isDeterministicKind_congr same]

private theorem nullablePtr_congr : i.nullablePtr ask t = i.nullablePtr ask t' := by
  obtain ⟨r, r', canonical, canonical', same⟩ := alike.exists_canonical
  unfold nullablePtr
  rw [canonical, canonical', Runs.lift_ok_bind, Runs.lift_ok_bind,
    Setting.isNullablePtr_congr same, Setting.pointee_congr same]

/-- The verdict on deep constness. -/
private theorem deepConst_congr : i.deepConst ask t = i.deepConst ask t' := by
  obtain ⟨r, r', canonical, canonical', same⟩ := alike.exists_canonical
  unfold deepConst
  rw [canonical, canonical', Runs.lift_ok_bind, Runs.lift_ok_bind, same, deepConstOwner_congr same,
    Setting.isSafePtr_congr same, Setting.isNullablePtr_congr same]

/-- One level: types that are alike are answered alike. -/
theorem assess_congr (a : Aspect) : i.assess ask a t = i.assess ask a t' := by
  cases a with
  | heapSafe =>
    show (do return Verdict.flag (← i.safe ask t)) = _
    rw [safe_congr alike]
    rfl
  | deterministic =>
    show (do return Verdict.flag (← i.deterministic ask t)) = _
    rw [deterministic_congr alike]
    rfl
  | stackOnly =>
    show (do return Verdict.flag (← i.stackOnly t) : Inspect Verdict) = _
    rw [stackOnly_congr alike.shape]
    rfl
  | nullablePtr => exact nullablePtr_congr alike
  | nakedStruct => exact nakedStruct_congr alike.shape
  | deepConst => exact deepConst_congr alike

/-- At every depth an inspector says the same of types that are alike. The parts that it asks about
are read off the layer, so there is no induction on the depth. -/
theorem judgeWithin_congr (depth : Nat) (a : Aspect) :
    i.judgeWithin depth a t = i.judgeWithin depth a t' := by
  cases depth with
  | zero => rfl
  | succ depth => exact assess_congr alike a

/-- And so it does at its own depth. -/
private theorem judge_congr (a : Aspect) : i.judge a t = i.judge a t' :=
  judgeWithin_congr alike i.depth a

end Inspector

/-- A classification says the same about types that are alike. -/
theorem Ledger.classify_congr {s : Setting} {t t' : QualifiedType} (alike : s.Alike t t')
    (voice : Voice) (a : Aspect) : classify s voice a t = classify s voice a t' := by
  unfold classify
  rw [Inspector.judge_congr (i := ⟨s, false⟩) alike]

end SafeDialect
