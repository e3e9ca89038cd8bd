/-
Unions, naked structs and nullable pointers are judged without leaving the unit.

Naked structs are looked into without a guard. What bounds them is the rank of records, which falls
from a naked struct to the naked structs among its members.
-/
import SafeDialect.Proofs.Classifier.Bound

namespace SafeDialect.Inspector

open Inspect

variable {π : Fault → Prop} {i : Inspector} {P : List (Aspect × RecordId)} {sys : Bool}
  {t : QualifiedType} {id defined : RecordId} {r : RecordDecl}

-- ============================================================ definitions

/-- A record that defines another one defines itself. -/
theorem definedRecord_self (known : i.setting.definedRecord id = .ok (some defined)) :
    i.setting.definedRecord defined = .ok (some defined) := by
  obtain ⟨r, look, cases⟩ := Setting.defines_of_definedRecord known
  have isDefined : ∃ p, i.setting.unit.record defined = .ok p ∧ p.isDefined := by
    rcases cases with ⟨isDefined, rfl⟩ | ⟨-, -, isDefined⟩
    · exact ⟨r, look, isDefined⟩
    · exact isDefined
  obtain ⟨p, look, isDefined⟩ := isDefined
  simp only [Setting.definedRecord, look, ok_bind, isDefined]
  rfl

variable (c : i.setting.unit.Consistent)
include c

/-- Whether a type may only live on the stack is answered without asking about parts. -/
theorem stackOnly_ends (inside : i.setting.unit.Holds .types t.id.index) :
    Ends π (i.stackOnly t) fun _ => True := by
  refine .bind (Setting.shape_ends c inside) fun shape _ => ?_
  split
  · exact .pure trivial
  · exact .pure trivial
  · exact .pure trivial
  · refine .bind (Setting.isNullablePtr_ends c inside) fun nullable _ => ?_
    split
    · exact .pure trivial
    · refine .bind (Setting.definedRecordOf_ends c inside) fun r insideR => ?_
      cases r with
      | none => exact .pure trivial
      | some id =>
        refine .bind (c.record_ends (insideR id rfl)) fun decl _ => ?_
        split
        · exact .pure trivial
        · exact .bind (c.recordName_ends (insideR id rfl)) fun _ _ => .pure trivial
  · exact .pure trivial

-- ============================================================ unions

/-- Whether a union holds primitives only is answered by looking at its fields. -/
theorem holdsPrimitives_ends (fits : r.Fits i.setting.unit) :
    Ends π (i.holdsPrimitives r) fun _ => True :=
  ends_allM fun f mem => .bind (Setting.shape_ends c (fits.fields f mem)) fun _ _ => .pure trivial

/-- A union is rejected just if a field is no primitive. Nothing is asked, and the session stays. -/
theorem unionRecord_yields (known : i.setting.definedRecord id = .ok (some id))
    (look : i.setting.unit.record id = .ok r) (fits : r.Fits i.setting.unit) :
    Yields π P sys (i.unionRecord id) fun ok => i.holdsPrimitives r = .ok ok := by
  simp only [unionRecord, known, look, Runs.lift_ok_bind]
  refine .allM_eq fun f mem => ?_
  refine .look (Setting.shape_ends c (fits.fields f mem)) fun shape known _ => ?_
  simp only [known, ok_bind]
  split
  · next complaint =>
    refine .bind .remark fun _ _ => .pure ?_
    rw [complaint]
    rfl
  · next fine =>
    refine .pure ?_
    rw [fine]
    rfl

-- ============================================================ naked structs

private theorem nakedMethod_yields {m : FunctionId}
    (inside : i.setting.unit.Holds .functions m.index) :
    Yields π P sys (i.nakedMethod r m) fun _ => True := by
  refine .look (c.function_ends inside) fun f _ _ => ?_
  split
  · exact .pure trivial
  · exact .bind .remark fun _ _ => .pure trivial

variable {b : Bound π i.setting.unit} {n : Nat} {ask : Ask} (asks : i.Answers b n ask)
  (ready : i.setting.unit.Ready P)
include asks ready

/-- A field of a naked struct is asked about under three aspects, one after the other until one of
them fits. -/
private theorem nakedField_yields {f : Field} (inside : i.setting.unit.Holds .types f.type.id.index)
    (affords : ¬ π .endless → ∀ a ∈ [Aspect.heapSafe, .nullablePtr, .nakedStruct],
      ∀ t, i.setting.canonical f.type = .ok t → b.Affords n P a t) :
    Yields π P sys (i.nakedField ask f) fun _ => True := by
  refine .look (c.canonical_ends inside) fun t canonical ⟨insideT, _⟩ => ?_
  have told (a : Aspect) (mem : a ∈ [Aspect.heapSafe, .nullablePtr, .nakedStruct]) :
      Yields π P sys (ask a t) fun _ => True :=
    .mono (asks a insideT ready fun strict => affords strict a mem t canonical) fun _ _ => trivial
  refine .bind (.quietly (told .heapSafe (by simp))) fun safe _ => ?_
  split
  · exact .pure trivial
  refine .bind (.quietly (told .nullablePtr (by simp))) fun nullable _ => ?_
  split
  · split
    · exact .pure trivial
    · refine .bind (told .nullablePtr (by simp)) fun _ _ => ?_
      exact .bind .remark fun _ _ => .pure trivial
  refine .bind (.quietly (told .nakedStruct (by simp))) fun naked _ => ?_
  split
  · split
    · exact .pure trivial
    · refine .bind (told .nakedStruct (by simp)) fun _ _ => ?_
      exact .bind .remark fun _ _ => .pure trivial
  refine .bind (told .heapSafe (by simp)) fun _ _ => ?_
  exact .bind .remark fun _ _ => .pure trivial

/-- A record is looked at as a naked struct with as much depth as its fields need. -/
theorem nakedRecord_yields (inside : i.setting.unit.Holds .records id.index)
    (affords : ¬ π .endless → ∀ d r, i.setting.definedRecord id = .ok (some d) →
      i.setting.unit.record d = .ok r → ∀ f ∈ r.fields,
      ∀ a ∈ [Aspect.heapSafe, .nullablePtr, .nakedStruct],
      ∀ t, i.setting.canonical f.type = .ok t → b.Affords n P a t) :
    Yields π P sys (i.nakedRecord ask id) fun _ => True := by
  refine .look (Setting.definedRecord_ends c inside) fun d known insideD => ?_
  cases d with
  | none => exact .pure trivial
  | some d =>
    refine .look (c.record_ends (insideD d rfl)) fun r look fits => ?_
    split
    · exact .bind .remark fun _ _ => .pure trivial
    · refine .bind (.allM_any fun f mem => ?_) fun fields _ => ?_
      · exact nakedField_yields c asks ready (fits.fields f mem) fun strict =>
          affords strict d r known look f mem
      · split
        · exact .allM_any fun m mem => nakedMethod_yields c (fits.methods m mem)
        · exact .pure trivial

omit asks ready in
/-- The members of a naked struct may be asked about if the struct may. -/
theorem affords_nakedMember {f : Field} (strict : ¬ π .endless)
    (affords : b.Affords (n + 1) P .nakedStruct t)
    (shape : i.setting.unit.types.canonicalShape t = .ok (.record id))
    (defines : i.setting.unit.Defines id defined)
    (look : i.setting.unit.record defined = .ok r) (tagged : r.has .nakedStruct)
    (mem : f ∈ r.fields) (insideF : i.setting.unit.Holds .types f.type.id.index) {a : Aspect}
    (asked : a ∈ [Aspect.heapSafe, .nullablePtr, .nakedStruct]) {t' : QualifiedType}
    (canonical : i.setting.canonical f.type = .ok t') : b.Affords n P a t' := by
  obtain ⟨falls, -, enough⟩ := affords
  have enough := enough id defined r shape defines look tagged
  simp only [List.mem_cons, List.not_mem_nil, or_false] at asked
  rcases asked with rfl | rfl | rfl
  · have insideT' := c.canonical_ends (π := fun _ => False) insideF
    rw [show i.setting.unit.types.canonical f.type = .ok t' from canonical] at insideT'
    have below := (b.ranked strict).lt_size _ insideT'.1
    show i.setting.unit.room P + b.typeRank t'.id < n
    omega
  · show i.setting.unit.room P + i.setting.unit.types.size < n
    omega
  -- a member that is a naked struct itself has a lower rank, which pays for one level of depth
  · refine ⟨falls, by omega, fun id' inner naked shape' defines' look' tagged' => ?_⟩
    rw [TranslationUnit.canonicalShape_of_canonical canonical] at shape'
    have lower := falls.member defined inner
      ⟨r, f, id', naked, look, mem, shape', defines', look', tagged'⟩
    omega

/-- A naked struct spends one question on its record. -/
theorem nakedStruct_yields (inside : i.setting.unit.Holds .types t.id.index)
    (affords : ¬ π .endless → b.Affords (n + 1) P .nakedStruct t) :
    Yields π P sys (i.nakedStruct ask t) fun _ => True := by
  refine .look (Setting.definedRecordOf_ends c inside) fun r found insideR => ?_
  cases r with
  | none => exact .pure trivial
  | some defined =>
    obtain ⟨id, shape, known⟩ := Setting.eq_of_definedRecordOf found
    refine .look (c.record_ends (insideR defined rfl)) fun r look fits => ?_
    split
    · next tagged =>
      refine .bind (nakedRecord_yields c asks ready (insideR defined rfl) ?_) fun _ _ =>
        .pure trivial
      intro strict d r' known' look' f mem a asked t' canonical
      -- the record that is asked about holds its own definition
      cases (definedRecord_self known).symm.trans known'
      cases look.symm.trans look'
      exact affords_nakedMember c strict (affords strict) shape
        (Setting.defines_of_definedRecord known) look tagged mem (fits.fields f mem) asked canonical
    · exact .pure trivial

/-- A nullable pointer spends one on what it points to. -/
theorem nullablePtr_yields (inside : i.setting.unit.Holds .types t.id.index)
    (affords : ¬ π .endless → b.Affords (n + 1) P .nullablePtr t) :
    Yields π P sys (i.nullablePtr ask t) fun _ => True := by
  refine .look (c.canonical_ends inside) fun t' canonical ⟨insideT, _⟩ => ?_
  refine .look (Setting.isNullablePtr_ends c insideT) fun nullable _ _ => ?_
  split
  · refine .look (Setting.pointee_ends c insideT) fun p found insideP => ?_
    cases p with
    | none => exact .pure trivial
    | some pointee =>
      refine .bind (asks.safe (insideP pointee rfl) ready fun strict => ?_) fun _ _ => .pure trivial
      have below := (b.ranked strict).lt_size _ (insideP pointee rfl)
      have enough : i.setting.unit.room P + i.setting.unit.types.size < n + 1 := affords strict
      omega
  · exact .pure trivial

end SafeDialect.Inspector
