/-
How deep questions nest, and what is promised of their answers.

A question about a record puts it in progress for one of three aspects, so at most three times as
many can be in progress as there are records. Between two such entries questions go from a type to a
template argument, and the rank of types falls. Together that bounds how deep the questions about a
type nest. Naked structs are not kept in progress; there the rank of records falls.

`Answers` is the promise that each question makes to the one that asks it: with enough depth left
the answer is bad if and only if there is a failing chain.
-/
import Mathlib.Data.List.ProdSigma
import SafeDialect.Proofs.Classifier.Session
import SafeDialect.Proofs.Classifier.Table
import SafeDialect.Proofs.Setting.Lookup

namespace SafeDialect

variable {π : Fault → Prop} {u : TranslationUnit} {P : List (Aspect × RecordId)}

-- ============================================================ records in progress

/-- The aspects whose questions keep records in progress. -/
def Aspect.guarded : List Aspect := [.heapSafe, .deterministic, .deepConst]

namespace TranslationUnit

/-- Records in progress, each of them once for an aspect. -/
structure Ready (u : TranslationUnit) (P : List (Aspect × RecordId)) : Prop where
  nodup : P.Nodup
  known : ∀ k ∈ P, k.1 ∈ Aspect.guarded ∧ u.Holds .records k.2.index

/-- Nothing is in progress at the start. -/
theorem Ready.nil : u.Ready [] := ⟨List.nodup_nil, fun _ mem => nomatch mem⟩

/-- A record may be entered under a guarded aspect under which it is not in progress yet. -/
theorem Ready.cons (ready : u.Ready P) {a : Aspect} {id : RecordId} (fresh : (a, id) ∉ P)
    (guarded : a ∈ Aspect.guarded) (inside : u.Holds .records id.index) :
    u.Ready ((a, id) :: P) := by
  refine ⟨List.nodup_cons.mpr ⟨fresh, ready.nodup⟩, fun k mem => ?_⟩
  rcases List.mem_cons.mp mem with rfl | mem
  · exact ⟨guarded, inside⟩
  · exact ready.known k mem

/-- There are three guarded aspects, so no more is in progress than three times the number of
records. -/
theorem Ready.length_le (ready : u.Ready P) : P.length ≤ 3 * u.records.size := by
  -- a list without repetitions is no longer than a list of all it may contain
  let all := Aspect.guarded ×ˢ (List.range u.records.size).map RecordId.mk
  have within : P ⊆ all := by
    rintro ⟨a, id⟩ mem
    obtain ⟨guarded, inside⟩ := ready.known _ mem
    have listed : id ∈ (List.range u.records.size).map RecordId.mk :=
      List.mem_map.mpr ⟨id.index, List.mem_range.mpr inside, rfl⟩
    exact List.mem_product.mpr ⟨guarded, listed⟩
  calc P.length ≤ all.length := (List.subperm_of_subset ready.nodup within).length_le
    _ = 3 * u.records.size := by simp [all, List.length_product, Aspect.guarded, -List.product_cons]

/-- The depth that the records not in progress may still take. -/
def room (u : TranslationUnit) (P : List (Aspect × RecordId)) : Nat :=
  (3 * u.records.size - P.length) * u.types.size

/-- Putting one more record in progress makes room for a chain of types. -/
theorem Ready.room_cons {k : Aspect × RecordId} (ready : u.Ready (k :: P)) :
    u.room (k :: P) + u.types.size = u.room P := by
  have fits : P.length + 1 ≤ 3 * u.records.size := ready.length_le
  unfold room
  rw [List.length_cons, ← Nat.succ_mul]
  congr 1
  omega

end TranslationUnit

-- ============================================================ the promise

/-- Ranks that bound how deep questions nest, unless running out of depth is permitted. -/
structure Bound (π : Fault → Prop) (u : TranslationUnit) where
  typeRank : TypeId → Nat
  nakedRank : RecordId → Nat
  ranked : ¬ π .endless → u.Ranked typeRank

/-- Where running out of depth is permitted nothing has to fall. -/
def Bound.none (permitted : π .endless) : Bound π u := ⟨fun _ => 0, fun _ => 0, absurd permitted⟩

/-- A rank of types is enough for questions that are not about naked structs. -/
def Bound.ofRank {typeRank : TypeId → Nat} (ranked : u.Ranked typeRank) : Bound π u :=
  ⟨typeRank, fun _ => 0, fun _ => ranked⟩

/-- The depth is enough for a question. -/
def Bound.Affords (b : Bound π u) (depth : Nat) (P : List (Aspect × RecordId)) :
    Aspect → QualifiedType → Prop
  | .heapSafe, t | .deterministic, t | .deepConst, t => u.room P + b.typeRank t.id < depth
  | .stackOnly, _ => 0 < depth
  | .nullablePtr, _ => u.room P + u.types.size < depth
  | .nakedStruct, t => u.NakedRanked b.nakedRank ∧ 0 < depth ∧
      ∀ id d r, u.types.canonicalShape t = .ok (.record id) → u.Defines id d → u.record d = .ok r →
        r.has .nakedStruct → u.room P + u.types.size + b.nakedRank d + 1 < depth

namespace Inspector

/-- What a verdict on a type tells. -/
def Tells (i : Inspector) (P : List (Aspect × RecordId)) (sys : Bool) (t : QualifiedType) :
    Aspect → Verdict → Prop
  | .heapSafe, v => v.sound = false ↔ i.Fails P (.type .heapSafe t sys)
  | .deterministic, v => v.sound = false ↔ i.Fails P (.type .deterministic t sys)
  | .deepConst, v => v.isGood = false ↔ i.Fails P (.type .deepConst t sys)
  | _, _ => True

/-- Questions within a depth are answered as the chains of questions demand. -/
def Answers (i : Inspector) (b : Bound π i.setting.unit) (depth : Nat) (ask : Ask) : Prop :=
  ∀ {P : List (Aspect × RecordId)} {sys : Bool} (a : Aspect) {t : QualifiedType},
    i.setting.unit.Holds .types t.id.index → i.setting.unit.Ready P →
    (¬ π .endless → b.Affords depth P a t) → Yields π P sys (ask a t) (i.Tells P sys t a)

section

variable {i : Inspector} {b : Bound π i.setting.unit} {n : Nat} {ask : Ask} {sys : Bool}
  {t : QualifiedType} (asks : i.Answers b n ask) (inside : i.setting.unit.Holds .types t.id.index)
  (ready : i.setting.unit.Ready P)
  (affords : ¬ π .endless → i.setting.unit.room P + b.typeRank t.id < n)
include asks inside ready affords

theorem Answers.safe : Yields π P sys (ask .heapSafe t) fun v =>
    v.sound = false ↔ i.Fails P (.type .heapSafe t sys) :=
  asks .heapSafe inside ready affords

theorem Answers.deterministic : Yields π P sys (ask .deterministic t) fun v =>
    v.sound = false ↔ i.Fails P (.type .deterministic t sys) :=
  asks .deterministic inside ready affords

theorem Answers.deepConst : Yields π P sys (ask .deepConst t) fun v =>
    v.isGood = false ↔ i.Fails P (.type .deepConst t sys) :=
  asks .deepConst inside ready affords

end

end Inspector

/-- The type arguments of a record are in the unit. -/
theorem RecordDecl.Fits.typeArgs {r : RecordDecl} (fits : r.Fits u) (t : QualifiedType)
    (mem : t ∈ r.typeArgs) : u.Holds .types t.id.index := by
  obtain ⟨arg, memArg, isType⟩ := List.mem_filterMap.mp mem
  cases arg with
  | type t' =>
    cases isType
    exact fits.args t memArg
  | integral => cases isType
  | other => cases isType

-- ============================================================ parts of a type rank lower

namespace Setting

variable {s : Setting} {typeRank : TypeId → Nat} {t : QualifiedType}

/-- What a record is found to be defined by defines it. -/
theorem defines_of_definedRecord {id d : RecordId} (found : s.definedRecord id = .ok (some d)) :
    s.unit.Defines id d := by
  obtain ⟨r, look, same⟩ := bind_eq_ok.mp found
  refine ⟨r, look, ?_⟩
  split at same
  · next defined =>
    cases same
    exact .inl ⟨defined, rfl⟩
  · next undefined =>
    split at same
    · cases same
    · next pattern known =>
      obtain ⟨p, lookPattern, same⟩ := bind_eq_ok.mp same
      split at same
      · next defined =>
        cases same
        exact .inr ⟨undefined, known, p, lookPattern, defined⟩
      · cases same

/-- What defines a type defines the record that the type comes down to. -/
theorem eq_of_definedRecordOf {d : RecordId} (found : s.definedRecordOf t = .ok (some d)) :
    ∃ id, s.unit.types.canonicalShape t = .ok (.record id)
      ∧ s.definedRecord id = .ok (some d) := by
  obtain ⟨r, look, same⟩ := bind_eq_ok.mp found
  cases r with
  | none => cases same
  | some id => exact ⟨id, canonicalShape_of_recordOf look, same⟩

variable (ranked : s.unit.Ranked typeRank)
include ranked

/-- The parts of the canonical type rank lower than a type. -/
theorem rank_lt_of_part {shape : TypeShape} {p : TypeId}
    (look : s.unit.types.canonicalShape t = .ok shape)
    (part : ∀ whole, s.unit.types.shape whole = .ok shape → s.unit.Part whole p) :
    typeRank p < typeRank t.id := by
  obtain ⟨r, canonical, here⟩ := bind_eq_ok.mp look
  exact Nat.lt_of_lt_of_le (ranked.part _ _ (part _ here)) (ranked.resolve_le canonical)

private theorem rank_templateArg_lt {n : Nat} {arg : QualifiedType}
    (found : s.templateArg t n = .ok (some arg)) : typeRank arg.id < typeRank t.id := by
  obtain ⟨record, isRecord, found⟩ := bind_eq_ok.mp found
  cases record with
  | none => cases found
  | some id =>
    obtain ⟨r, look, found⟩ := bind_eq_ok.mp found
    split at found
    · next written known =>
      obtain ⟨canonical, resolves, same⟩ := bind_eq_ok.mp found
      cases same
      have falls : typeRank written.id < typeRank t.id :=
        rank_lt_of_part ranked (canonicalShape_of_recordOf isRecord) fun _ here =>
          .argument here look (List.mem_of_getElem? known)
      exact Nat.lt_of_le_of_lt (ranked.resolve_le resolves) falls
    · cases found

private theorem rank_pointee_lt {p : QualifiedType} (found : s.pointee t = .ok (some p)) :
    typeRank p.id < typeRank t.id := by
  obtain ⟨shape, look, found⟩ := bind_eq_ok.mp found
  split at found
  · next written =>
    obtain ⟨canonical, resolves, same⟩ := bind_eq_ok.mp found
    cases same
    have falls : typeRank written.id < typeRank t.id :=
      rank_lt_of_part ranked look fun _ here => .component here List.mem_cons_self
    exact Nat.lt_of_le_of_lt (ranked.resolve_le resolves) falls
  · exact rank_templateArg_lt ranked found

end Setting

/-- A depth that covers every type is enough for a member. -/
theorem Bound.affords_member {b : Bound π u} {n : Nat} {t : QualifiedType}
    (covers : ¬ π .endless → u.room P + u.types.size ≤ n) (inside : u.Holds .types t.id.index) :
    ¬ π .endless → u.room P + b.typeRank t.id < n := by
  intro strict
  have below := (b.ranked strict).lt_size _ inside
  have enough := covers strict
  omega

section

variable {s : Setting} {b : Bound π s.unit} {n : Nat} {t arg : QualifiedType}
  (covers : ¬ π .endless → s.unit.room P + b.typeRank t.id ≤ n)
include covers

/-- A depth that covers a type is enough for its template arguments. -/
theorem Bound.affords_arg {k : Nat} (found : s.templateArg t k = .ok (some arg)) :
    ¬ π .endless → s.unit.room P + b.typeRank arg.id < n := by
  intro strict
  have falls := Setting.rank_templateArg_lt (b.ranked strict) found
  have enough := covers strict
  omega

/-- Following synonyms costs nothing, since it lowers no rank. -/
theorem Bound.covers_canonical (canonical : s.canonical t = .ok arg) :
    ¬ π .endless → s.unit.room P + b.typeRank arg.id ≤ n := by
  intro strict
  have falls := (b.ranked strict).resolve_le canonical
  have enough := covers strict
  omega

/-- What a pointer leads to ranks below it, so one question about it can be afforded. -/
theorem Bound.affords_pointee (found : s.pointee t = .ok (some arg)) :
    ¬ π .endless → s.unit.room P + b.typeRank arg.id < n := by
  intro strict
  have falls := Setting.rank_pointee_lt (b.ranked strict) found
  have enough := covers strict
  omega

end

/-- A record is judged by the table of its definition, which is in progress meanwhile. -/
theorem Inspector.guardedRecord_yields {α : Type} {i : Inspector} {sys : Bool} {id : RecordId}
    {a : Aspect} {act : RecordId → Inspect α} {provisional missing : α} (bad : α → Prop)
    (c : i.setting.unit.Consistent) (guarded : a ∈ Aspect.guarded)
    (ready : i.setting.unit.Ready P) (inside : i.setting.unit.Holds .records id.index)
    (ofProvisional : ¬ bad provisional) (ofMissing : bad missing)
    (ofAct : ∀ defined, i.setting.definedRecord id = .ok (some defined) →
      i.setting.unit.Holds .records defined.index → i.setting.unit.Ready ((a, defined) :: P) →
      Yields π ((a, defined) :: P) sys (act defined) fun v =>
        bad v ↔ i.FailsBy ((a, defined) :: P) (i.recordRuling a sys id defined)) :
    Yields π P sys (do
        match ← i.setting.definedRecord id with
        | some defined => Inspect.guarded a defined provisional (act defined)
        | none => return missing)
      fun v => bad v ↔ i.Fails P (.record a id sys) := by
  refine .look (Setting.definedRecord_ends c inside) fun r known insideR => ?_
  cases r with
  | none => exact .pure (iff_of_true ofMissing (fails_record_of_undefined known))
  | some defined =>
    have insideDefined := insideR defined rfl
    simp only [fails_record_iff known]
    refine .guarded (fun inProgress => ?_) fun fresh => ?_
    -- the provisional answer is good, and no failing chain comes to a record in progress
    · exact iff_of_false ofProvisional fun h => h.1 inProgress
    · refine .mono (ofAct defined known insideDefined (ready.cons fresh guarded insideDefined))
        fun v told => ?_
      rw [told]
      exact (and_iff_right fresh).symm

end SafeDialect
