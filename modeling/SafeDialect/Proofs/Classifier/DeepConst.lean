/-
Deep constness is judged as its tables demand.
-/
import SafeDialect.Proofs.Classifier.Aggregate

namespace SafeDialect.Inspector

open Inspect

variable {π : Fault → Prop} {i : Inspector} {P : List (Aspect × RecordId)} {sys : Bool}
  {t : QualifiedType} {id defined : RecordId} {r : RecordDecl} (c : i.setting.unit.Consistent)
include c

-- ============================================================ members

/-- The methods of a record suit deep constness, or there is a remark on the first that does not. -/
theorem deepConstMethods_yields (fits : r.Fits i.setting.unit) :
    Yields π P sys (r.methods.allM i.deepConstMethod) fun ok =>
      r.methods.allM i.suitsDeepConst = .ok ok := by
  refine .allM_eq fun m mem => ?_
  refine .look (c.function_ends (fits.methods m mem)) fun f look _ => ?_
  simp only [suitsDeepConst, look, ok_bind]
  split
  · next complaint =>
    refine .bind .remark fun _ _ => .pure ?_
    rw [complaint]
    rfl
  · next fine =>
    refine .pure ?_
    rw [fine]
    rfl

/-- Whether they do is answered by looking at them. -/
theorem suitsDeepConst_ends (fits : r.Fits i.setting.unit) :
    Ends π (r.methods.allM i.suitsDeepConst) fun _ => True :=
  ends_allM fun m mem => .bind (c.function_ends (fits.methods m mem)) fun _ _ => .pure trivial

variable {b : Bound π i.setting.unit} {n : Nat} {ask : Ask} (asks : i.Answers b n ask)
  (ready : i.setting.unit.Ready P)
include asks ready

section Members

variable (covers : ¬ π .endless →
  i.setting.unit.room P + i.setting.unit.types.size ≤ n)
include covers

/-- A union fails outright, and another record by a field, a method or a base. -/
private theorem deepConstMembers_yields {entered : Bool} (fits : r.Fits i.setting.unit) :
    Yields π P sys (i.deepConstMembers ask entered r) fun v => v.isGood = false ↔
      r.isUnion ∨ r.methods.allM i.suitsDeepConst = .ok false
        ∨ ∃ t ∈ r.memberTypes, i.Fails P (.type .deepConst t sys) := by
  have member {t : QualifiedType} (inside : i.setting.unit.Holds .types t.id.index) :
      Yields π P sys (do return (← ask .deepConst t).isGood) fun ok =>
        ok = false ↔ i.Fails P (.type .deepConst t sys) :=
    .bind (asks.deepConst inside ready (b.affords_member covers inside)) fun _ told => .pure told
  unfold deepConstMembers
  split
  · next union =>
    exact .bind .remark fun _ _ => .pure (iff_of_true rfl (.inl union))
  next notUnion =>
  -- methods are looked at only if the fields are good, and bases only if the methods are
  refine .bind (.allMembers fun f mem => member (fits.fields f mem)) fun fields toldFields => ?_
  cases fields with
  | false =>
    obtain ⟨f, mem, fails⟩ := toldFields.mp rfl
    refine .pure (iff_of_true rfl (.inr (.inr ⟨f.type, ?_, fails⟩)))
    exact List.mem_append_left _ (List.mem_map_of_mem mem)
  | true =>
    refine .bind (deepConstMethods_yields c fits) fun methods known => ?_
    cases methods with
    | false => exact .pure (iff_of_true rfl (.inr (.inl known)))
    | true =>
      refine .bind (.allMembers fun f mem => member (fits.bases f mem)) fun bases toldBases => ?_
      refine .pure ?_
      have fieldsGood : ∀ f ∈ r.fields, ¬ i.Fails P (.type .deepConst f.type sys) :=
        fun f mem fails => nomatch toldFields.mpr ⟨f, mem, fails⟩
      simp only [Verdict.isGood, Bool.true_and, toldBases, known, RecordDecl.memberTypes,
        List.mem_append, List.mem_map]
      constructor
      · rintro ⟨f, mem, fails⟩
        exact .inr (.inr ⟨f.type, .inr ⟨f, mem, rfl⟩, fails⟩)
      · rintro (union | bad | ⟨_, ⟨f, mem, rfl⟩ | ⟨f, mem, rfl⟩, fails⟩)
        · exact absurd union notUnion
        · cases bad
        · exact absurd fails (fieldsGood f mem)
        · exact ⟨f, mem, fails⟩

-- ============================================================ template arguments

private theorem argOfRecord_yields {location : Location} {k : Nat} {arg : TemplateArg}
    (inside : ∀ t, arg = .type t → i.setting.unit.Holds .types t.id.index) :
    Yields π P sys (i.argOfRecord ask location k arg) fun ok => ok = false ↔
      ∃ t, arg.type? = some t ∧
        (i.Fails P (.type .heapSafe t sys) ∨ i.Fails P (.type .deepConst t sys)) := by
  cases arg with
  | integral value => exact .pure (by simp [TemplateArg.type?])
  | other text => exact .pure (by simp [TemplateArg.type?])
  | type t =>
    refine .look (c.canonical_ends (inside t rfl)) fun t' canonical ⟨insideT, _⟩ => ?_
    have affords := b.affords_member covers insideT
    simp only [TemplateArg.type?, Option.some.injEq, exists_eq_left']
    rw [← fails_canonical canonical, ← fails_canonical canonical]
    refine .bind (asks.safe insideT ready affords) fun safe toldSafe => ?_
    cases isSafe : safe.sound with
    | false =>
      refine .look (c.spelling_ends b.ranked insideT) fun _ _ _ => ?_
      exact .bind .remark fun _ _ => .pure (iff_of_true rfl (.inl (toldSafe.mp isSafe)))
    | true =>
      have passed : ¬ i.Fails P (.type .heapSafe t' sys) :=
        fun h => nomatch isSafe.symm.trans (toldSafe.mpr h)
      refine .bind (asks.deepConst insideT ready affords) fun deep toldDeep => ?_
      cases isDeep : deep.isGood with
      | false =>
        refine .look (c.spelling_ends b.ranked insideT) fun _ _ _ => ?_
        exact .bind .remark fun _ _ => .pure (iff_of_true rfl (.inr (toldDeep.mp isDeep)))
      | true =>
        refine .pure (iff_of_false nofun ?_)
        rintro (h | h)
        · exact passed h
        · exact nomatch isDeep.symm.trans (toldDeep.mpr h)

/-- A record that is deep const by its arguments needs some, and all of them safe and deep const. -/
theorem argsDeepConst_yields (look : i.setting.unit.record id = .ok r)
    (fits : r.Fits i.setting.unit) :
    Yields π P sys (i.argsDeepConst ask id) fun ok => ok = false ↔ r.templateArgs = []
      ∨ ∃ t ∈ r.typeArgs,
        i.Fails P (.type .heapSafe t sys) ∨ i.Fails P (.type .deepConst t sys) := by
  simp only [argsDeepConst, look, Runs.lift_ok_bind]
  split
  · next empty => exact .pure (iff_of_true rfl (.inl (List.isEmpty_iff.mp empty)))
  · next filled =>
    refine .mono (.allM (fun x => ∃ t, x.1.type? = some t ∧
      (i.Fails P (.type .heapSafe t sys) ∨ i.Fails P (.type .deepConst t sys)))
      fun x mem => ?_) fun ok told => ?_
    · refine argOfRecord_yields c asks ready covers fun t same => fits.args t ?_
      rw [← same]
      exact List.fst_mem_of_mem_zipIdx mem
    · rw [told]
      constructor
      · rintro ⟨x, mem, t, isType, fails⟩
        have mem := List.fst_mem_of_mem_zipIdx mem
        exact .inr ⟨t, List.mem_filterMap.mpr ⟨x.1, mem, isType⟩, fails⟩
      · rintro (none | ⟨t, mem, fails⟩)
        · exact absurd (List.isEmpty_iff.mpr none) filled
        · obtain ⟨arg, mem, isType⟩ := List.mem_filterMap.mp mem
          rw [← List.zipIdx_map_fst 0 r.templateArgs] at mem
          obtain ⟨x, memX, rfl⟩ := List.mem_map.mp mem
          exact ⟨x, memX, t, isType, fails⟩

end Members

-- ============================================================ records

/-- A record whose definition is in progress is judged by the table of its record. -/
theorem deepConstDefined_yields (insideId : i.setting.unit.Holds .records id.index)
    (insideDefined : i.setting.unit.Holds .records defined.index)
    (covers : ¬ π .endless → i.setting.unit.room P + i.setting.unit.types.size ≤ n) :
    Yields π P sys (i.deepConstDefined ask id defined) fun v =>
      v.isGood = false ↔ i.FailsBy P (i.deepConstRecordRuling sys id defined) := by
  obtain ⟨used, lookUsed, fitsUsed⟩ := (c.record_ends insideId).answer
  refine .look (c.record_ends insideDefined) fun r look fits => ?_
  refine .look (Setting.isSystemRecord_ends c insideDefined) fun isSystem known _ => ?_
  obtain ⟨suits, knownSuits, -⟩ := (suitsDeepConst_ends c fits).answer
  simp only [deepConstRecordRuling, look, lookUsed, known, knownSuits, ok_bind]
  -- the flag is read after the record is entered, so a library record counts as library code
  refine .inside fun entered => ?_
  refine .get_bind fun s flag => ?_
  rw [flag]
  cases inSystem : sys || isSystem with
  | true =>
    simp only [if_true]
    split
    · exact .pure accepted_iff
    split
    · next whenParams =>
      refine .bind (argsDeepConst_yields c asks ready covers lookUsed fitsUsed) fun ok told => ?_
      refine .pure ?_
      simp only [Verdict.isGood, Verdict.flag, Bool.and_self, told, whenParams, Bool.true_and]
      split
      · next filled =>
        have filled : used.templateArgs ≠ [] := by simpa using filled
        rw [failsBy_rests, exists_fails_both, or_iff_right filled]
      · next empty =>
        have empty : used.templateArgs = [] := by simpa using empty
        simp [empty]
    · next notWhenParams =>
      refine .pure (iff_of_true rfl ?_)
      simp [notWhenParams]
  | false =>
    simp only [Bool.false_eq_true, if_false]
    split
    · next tagged =>
      refine .mono (deepConstMembers_yields c asks ready covers fits) fun v told => ?_
      rw [told, knownSuits, tagged]
      cases union : r.isUnion <;> cases suits <;> simp
    · next untagged =>
      refine .pure (iff_of_true rfl ?_)
      simp [untagged]

/-- A record is deep const by its arguments, if it is tagged so, or by its members. -/
theorem deepConstRecord_yields (inside : i.setting.unit.Holds .records id.index)
    (covers : ¬ π .endless → i.setting.unit.room P ≤ n) :
    Yields π P sys (i.deepConstRecord ask id) fun v =>
      v.isGood = false ↔ i.Fails P (.record .deepConst id sys) := by
  refine guardedRecord_yields (fun v : Verdict => v.isGood = false) c (by decide) ready inside
    nofun rfl fun defined _ insideDefined ready' => ?_
  refine deepConstDefined_yields c asks ready' inside insideDefined fun strict => ?_
  rw [ready'.room_cons]
  exact covers strict

-- ============================================================ types

/-- A smart pointer that owns something is deep const if that is. -/
private theorem deepConstOwner_yields {name : String}
    (inside : i.setting.unit.Holds .types t.id.index)
    (covers : ¬ π .endless → i.setting.unit.room P + b.typeRank t.id ≤ n)
    (named : i.setting.typeName t = .ok name) (owning : i.setting.names.isOwningPtr name = true) :
    Yields π P sys (i.deepConstOwner ask t) fun ok =>
      ok = false ↔ i.FailsBy P (i.ownerRuling sys t) := by
  simp only [deepConstOwner, Setting.isOwningPtr_eq named, owning, Runs.lift_ok_bind, if_true]
  refine .look (Setting.templateArg_ends c inside) fun r found insideArg => ?_
  simp only [ownerRuling, found, ok_bind]
  cases r with
  | none => exact .pure rejected_iff
  | some arg =>
    refine .bind (asks.deepConst (insideArg arg rfl) ready (b.affords_arg covers found))
      fun v told => .pure ?_
    cases constant : arg.isConst
    · simp [constant]
    · simp [constant, told]

/-- The verdict on a type is good unless the ruling on it fails. -/
theorem deepConst_yields (inside : i.setting.unit.Holds .types t.id.index)
    (covers : ¬ π .endless → i.setting.unit.room P + b.typeRank t.id ≤ n) :
    Yields π P sys (i.deepConst ask t) fun v =>
      v.isGood = false ↔ i.Fails P (.type .deepConst t sys) := by
  refine .look (c.canonical_ends inside) fun t' canonical ⟨inside', _⟩ => ?_
  have covers' := b.covers_canonical covers canonical
  obtain ⟨shape, look, _, _, insideRecord⟩ := (Setting.shape_ends c inside').answer
  obtain ⟨name, named, -⟩ := (Setting.typeName_ends c inside').answer
  simp only [fails_type_iff, ruling_type canonical, typeRuling, deepConstRuling, look, named,
    ok_bind, Runs.lift_ok_bind]
  split
  · exact .pure rejected_iff
  split
  · exact .pure accepted_iff
  -- the check for owners comes first, and every owner is a safe pointer: a bad owner ends here
  simp only [Setting.isSafePtr_eq named, Setting.isNullablePtr_eq named, Runs.lift_ok_bind]
  cases owning : i.setting.names.isOwningPtr name with
  | true =>
    have isSafe : i.setting.names.isSafePtr name = true := by
      rw [Vocabulary.isSafePtr, owning, Bool.true_or]
    simp only [isSafe, if_true]
    refine .bind (deepConstOwner_yields c asks ready inside' covers' named owning)
      fun owner told => ?_
    cases owner with
    | true => exact .pure told
    | false => exact .pure told
  | false =>
    simp only [deepConstOwner, Setting.isOwningPtr_eq named, owning, Runs.lift_ok_bind,
      Bool.false_eq_true, if_false, pure_bind, Bool.or_eq_true]
    by_cases isSafe : i.setting.names.isSafePtr name = true
    · simp only [isSafe, true_or, if_true]
      exact .pure rejected_iff
    by_cases nullable : i.setting.names.isNullablePtr name = true
    · simp only [isSafe, nullable, Bool.false_eq_true, or_true, if_true, if_false]
      exact .pure rejected_iff
    simp only [isSafe, nullable, Bool.false_eq_true, or_self, if_false]
    cases shape with
    | record id =>
      refine .mono (deepConstRecord_yields c asks ready (insideRecord id rfl) fun strict => ?_)
        fun v told => ?_
      · exact Nat.le_trans (Nat.le_add_right _ _) (covers strict)
      · simpa using told
    | templateParam => exact .pure accepted_iff
    | _ => exact .pure rejected_iff

end SafeDialect.Inspector
