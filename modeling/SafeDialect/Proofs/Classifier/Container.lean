/-
Containers are judged as their tables demand.

The arguments of a container rank lower than the container, so the depth that was enough for it is
enough for them.
-/
import SafeDialect.Proofs.Classifier.Bound

namespace SafeDialect.Inspector

open Inspect

variable {π : Fault → Prop} {i : Inspector} {P : List (Aspect × RecordId)} {sys : Bool}
  {t arg : QualifiedType} {k : Nat}

/-- Whether a type is a hash map is read off its name, and then its arguments decide. -/
theorem hashmap_eq {ask : Ask} {name : String} (named : i.setting.typeName t = .ok name) :
    i.hashmap ask t =
      if i.setting.names.hashmapRules && i.setting.names.hashmap.contains name then
        (do return ⟨true, ← i.hashmapArgs ask t⟩)
      else return .other := by
  simp only [hashmap, named, Runs.lift_ok_bind]
  cases i.setting.names.hashmapRules <;> rfl

variable (c : i.setting.unit.Consistent)
include c

-- ============================================================ look-ups and remarks

private theorem containerLocation_ends (inside : i.setting.unit.Holds .types t.id.index) :
    Ends π (i.containerLocation t) fun _ => True := by
  refine .bind (Setting.recordOf_ends c inside) fun r insideR => ?_
  cases r with
  | none => exact .pure trivial
  | some id => exact .bind (c.record_ends (insideR id rfl)) fun _ _ => .pure trivial

private theorem remarkAtContainer_yields {message : String}
    (inside : i.setting.unit.Holds .types t.id.index) :
    Yields π P sys (i.remarkAtContainer t message) fun _ => True :=
  .look (containerLocation_ends c inside) fun _ _ _ => .remark

/-- An argument that must be there is a type of the unit, and there is a remark if it is not
there. -/
private theorem requiredArg_yields (inside : i.setting.unit.Holds .types t.id.index) :
    Yields π P sys (i.requiredArg t k) fun r => i.setting.templateArg t k = .ok r
      ∧ ∀ arg, r = some arg → i.setting.unit.Holds .types arg.id.index := by
  refine .look (Setting.templateArg_ends c inside) fun r found insideArg => ?_
  cases r with
  | some arg => exact .pure ⟨found, insideArg⟩
  | none => exact .bind (remarkAtContainer_yields c inside) fun _ _ => .pure ⟨found, insideArg⟩

/-- Functions are all free of side effects or there is a remark on the first that is not. -/
private theorem allPure_yields {message : String} {operators : List FunctionId}
    (inside : ∀ op ∈ operators, i.setting.unit.Holds .functions op.index) :
    Yields π P sys (i.allPure message operators) fun ok =>
      operators.allM i.setting.isPure = .ok ok := by
  induction operators with
  | nil => exact .pure rfl
  | cons op rest ih =>
    have insideOp := inside op List.mem_cons_self
    refine .look (Setting.isPure_ends c insideOp) fun pure isPure _ => ?_
    unfold List.allM
    rw [isPure, ok_bind]
    cases pure with
    | true => exact ih fun op mem => inside op (List.mem_cons_of_mem _ mem)
    | false =>
      refine .look (c.function_ends insideOp) fun _ _ _ => ?_
      exact .bind .remark fun _ _ => .pure rfl

/-- Whether a type can be called is known, and without side effect or not. -/
theorem callsPurely_ends (inside : i.setting.unit.Holds .types t.id.index) :
    Ends π (i.callsPurely t) fun _ => True := by
  refine .bind (Setting.definedRecordOf_ends c inside) fun r insideR => ?_
  cases r with
  | none => exact .pure trivial
  | some id =>
    refine .bind (Setting.callOperators_ends c (insideR id rfl)) fun operators insideOps => ?_
    split
    · exact .pure trivial
    · exact ends_allM fun op mem => Setting.isPure_ends c (insideOps op mem)

/-- A hash map fails by any of its arguments. -/
theorem failsBy_hashmap_iff (inside : i.setting.unit.Holds .types t.id.index) :
    i.FailsBy P (i.hashmapRuling sys t) ↔
      (∀ key, i.setting.templateArg t 0 = .ok (some key) →
        i.Fails P (.type .heapSafe key sys) ∨ i.Fails P (.type .deepConst key sys))
      ∨ (∀ value, i.setting.templateArg t 1 = .ok (some value) →
        i.Fails P (.type .heapSafe value sys))
      ∨ (∀ hasher, i.setting.templateArg t 2 = .ok (some hasher) →
        i.Fails P (.type .heapSafe hasher sys) ∨ i.Fails P (.type .deepConst hasher sys)
          ∨ i.callsPurely hasher = .ok false)
      ∨ ∀ equality, i.setting.templateArg t 3 = .ok (some equality) →
        i.Fails P (.type .heapSafe equality sys) ∨ i.Fails P (.type .deepConst equality sys)
          ∨ i.callsPurely equality = .ok false := by
  obtain ⟨key, foundKey, -⟩ := (Setting.templateArg_ends (n := 0) c inside).answer
  obtain ⟨value, foundValue, -⟩ := (Setting.templateArg_ends (n := 1) c inside).answer
  obtain ⟨hasher, foundHasher, insideHasher⟩ := (Setting.templateArg_ends (n := 2) c inside).answer
  obtain ⟨equality, foundEquality, insideEquality⟩ :=
    (Setting.templateArg_ends (n := 3) c inside).answer
  simp only [hashmapRuling, foundKey, foundValue, foundHasher, foundEquality, ok_bind]
  cases key with
  | none => simp
  | some key =>
    cases value with
    | none => simp
    | some value =>
      cases hasher with
      | none => simp
      | some hasher =>
        cases equality with
        | none => simp
        | some equality =>
          obtain ⟨first, callsHasher, -⟩ := (callsPurely_ends c (insideHasher _ rfl)).answer
          obtain ⟨second, callsEquality, -⟩ := (callsPurely_ends c (insideEquality _ rfl)).answer
          simp only [callsHasher, callsEquality, ok_bind]
          cases first <;> cases second <;> simp [callsHasher, callsEquality, or_assoc]

variable {b : Bound π i.setting.unit}

private theorem remarkOnArg_yields (b : Bound π i.setting.unit) {complaint : String}
    (inside : i.setting.unit.Holds .types t.id.index)
    (insideArg : i.setting.unit.Holds .types arg.id.index) :
    Yields π P sys (i.remarkOnArg t k arg complaint) fun _ => True := by
  refine .look (containerLocation_ends c inside) fun _ _ _ => ?_
  exact .look (c.spelling_ends b.ranked insideArg) fun _ _ _ => .remark

/-- A function object is pure if all of its call operators are. -/
private theorem argIsPure_yields (b : Bound π i.setting.unit)
    (inside : i.setting.unit.Holds .types t.id.index)
    (insideArg : i.setting.unit.Holds .types arg.id.index) :
    Yields π P sys (i.argIsPure t k arg) fun ok => i.callsPurely arg = .ok ok := by
  refine .look (c.spelling_ends b.ranked insideArg) fun spelling _ _ => ?_
  refine .look (Setting.definedRecordOf_ends c insideArg) fun r found insideR => ?_
  simp only [callsPurely, found, ok_bind]
  cases r with
  | none => exact .bind (remarkAtContainer_yields c inside) fun _ _ => .pure rfl
  | some id =>
    refine .look (Setting.callOperators_ends c (insideR id rfl)) fun operators known insideOps => ?_
    simp only [known, ok_bind]
    cases operators with
    | nil => exact .bind (remarkAtContainer_yields c inside) fun _ _ => .pure rfl
    | cons op rest => exact allPure_yields c insideOps

-- ============================================================ arguments

/-- A question about an argument, with a remark if the answer is bad. -/
theorem argPasses_yields (b : Bound π i.setting.unit) {ask : Inspect Verdict}
    {passes : Verdict → Bool} {complaint : String} {bad : Prop}
    (inside : i.setting.unit.Holds .types t.id.index)
    (insideArg : i.setting.unit.Holds .types arg.id.index)
    (asked : Yields π P sys ask fun v => passes v = false ↔ bad) :
    Yields π P sys (do
      if passes (← ask) then return true
      else
        i.remarkOnArg t k arg complaint
        return false) fun ok => ok = false ↔ bad := by
  refine .bind asked fun v told => ?_
  split
  · next good => exact .pure (by simpa [good] using told)
  · next bad =>
    refine .bind (remarkOnArg_yields c b inside insideArg) fun _ _ => .pure ?_
    simpa [bad] using told

variable {n : Nat} {ask : Ask} (asks : i.Answers b n ask) (ready : i.setting.unit.Ready P)
include asks ready

/-- An argument is asked about once, and if it is not safe there is a remark on it. -/
private theorem argIsSafe_yields (inside : i.setting.unit.Holds .types t.id.index)
    (insideArg : i.setting.unit.Holds .types arg.id.index)
    (affords : ¬ π .endless → i.setting.unit.room P + b.typeRank arg.id < n) :
    Yields π P sys (i.argIsSafe ask t k arg) fun ok =>
      ok = false ↔ i.Fails P (.type .heapSafe arg sys) :=
  argPasses_yields c b inside insideArg (asks.safe insideArg ready affords)

private theorem argIsDeepConst_yields (inside : i.setting.unit.Holds .types t.id.index)
    (insideArg : i.setting.unit.Holds .types arg.id.index)
    (affords : ¬ π .endless → i.setting.unit.room P + b.typeRank arg.id < n) :
    Yields π P sys (i.argIsDeepConst ask t k arg) fun ok =>
      ok = false ↔ i.Fails P (.type .deepConst arg sys) :=
  argPasses_yields c b inside insideArg (asks.deepConst insideArg ready affords)

variable (inside : i.setting.unit.Holds .types t.id.index)
  (covers : ¬ π .endless → i.setting.unit.room P + b.typeRank t.id ≤ n)
include inside covers

/-- A missing argument counts as one that fails. -/
private theorem safeArg_yields : Yields π P sys (i.safeArg ask t k) fun ok =>
    ok = false ↔ ∀ arg, i.setting.templateArg t k = .ok (some arg) →
      i.Fails P (.type .heapSafe arg sys) := by
  refine .bind (requiredArg_yields c inside) fun r ⟨found, insideArg⟩ => ?_
  rw [found]
  cases r with
  | none => exact .pure (by simp)
  | some arg =>
    have affords := b.affords_arg covers found
    exact .mono (argIsSafe_yields c asks ready inside (insideArg arg rfl) affords)
      fun ok told => by simpa using told

/-- A key has to be safe and deep const. -/
private theorem safeDeepConstArg_yields : Yields π P sys (i.safeDeepConstArg ask t k) fun ok =>
    ok = false ↔ ∀ arg, i.setting.templateArg t k = .ok (some arg) →
      i.Fails P (.type .heapSafe arg sys) ∨ i.Fails P (.type .deepConst arg sys) := by
  refine .bind (requiredArg_yields c inside) fun r ⟨found, insideArg⟩ => ?_
  rw [found]
  cases r with
  | none => exact .pure (by simp)
  | some arg =>
    have affords := b.affords_arg covers found
    have insideArg := insideArg arg rfl
    have safe : Yields π P sys (i.argIsSafe ask t k arg) _ :=
      argIsSafe_yields c asks ready inside insideArg affords
    have deepConst : Yields π P sys (i.argIsDeepConst ask t k arg) _ :=
      argIsDeepConst_yields c asks ready inside insideArg affords
    exact .mono (safe.both deepConst) fun ok told => by simpa using told

/-- A hash or an equality has to be pure as well. -/
private theorem pureArg_yields : Yields π P sys (i.pureArg ask t k) fun ok =>
    ok = false ↔ ∀ arg, i.setting.templateArg t k = .ok (some arg) →
      i.Fails P (.type .heapSafe arg sys) ∨ i.Fails P (.type .deepConst arg sys)
        ∨ i.callsPurely arg = .ok false := by
  refine .bind (requiredArg_yields c inside) fun r ⟨found, insideArg⟩ => ?_
  rw [found]
  cases r with
  | none => exact .pure (by simp)
  | some arg =>
    have affords := b.affords_arg covers found
    have insideArg := insideArg arg rfl
    have safe : Yields π P sys (i.argIsSafe ask t k arg) _ :=
      argIsSafe_yields c asks ready inside insideArg affords
    have deepConst : Yields π P sys (i.argIsDeepConst ask t k arg) _ :=
      argIsDeepConst_yields c asks ready inside insideArg affords
    have pure : Yields π P sys (i.argIsPure t k arg) fun ok =>
        ok = false ↔ i.callsPurely arg = .ok false :=
      .mono (argIsPure_yields c b inside insideArg) fun ok told => by simp [told]
    exact .mono (safe.both (deepConst.both pure)) fun ok told => by simpa using told

-- ============================================================ containers

/-- A vector fails by its element. -/
theorem vectorArg_yields : Yields π P sys (i.safeArg ask t 0) fun ok =>
    ok = false ↔ i.FailsBy P (i.vectorRuling sys t) := by
  obtain ⟨r, found, -⟩ := (Setting.templateArg_ends (n := 0) c inside).answer
  refine .mono (safeArg_yields c asks ready inside covers) fun ok told => ?_
  rw [told, found]
  simp only [vectorRuling, found, ok_bind]
  cases r <;> simp

/-- A hash map fails by its key, its value, its hash or its equality. -/
theorem hashmapArgs_yields : Yields π P sys (i.hashmapArgs ask t) fun ok =>
    ok = false ↔ i.FailsBy P (i.hashmapRuling sys t) := by
  have key : Yields π P sys (i.safeDeepConstArg ask t 0) _ :=
    safeDeepConstArg_yields c asks ready inside covers
  have value : Yields π P sys (i.safeArg ask t 1) _ := safeArg_yields c asks ready inside covers
  have pure (k : Nat) : Yields π P sys (i.pureArg ask t k) _ :=
    pureArg_yields c asks ready inside covers
  refine .mono (key.both (value.both ((pure 2).both (pure 3)))) fun ok told => ?_
  rw [told, failsBy_hashmap_iff c inside]

end SafeDialect.Inspector
