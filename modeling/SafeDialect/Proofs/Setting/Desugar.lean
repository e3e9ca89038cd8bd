/-
Units without synonyms.

`desugared` puts the canonical form of a type wherever a unit mentions the type. The layers of
synonyms stay in the table, each now one step from its end, and nothing leads there any more. Slots
keep their places, and following synonyms ends where it did. So every kind of type, record and
function is what it was; only spellings change, and they still end.
-/
import SafeDialect.Proofs.Classifier.Alike
import SafeDialect.Proofs.Program.Retype
import SafeDialect.Proofs.Setting.Lookup

namespace SafeDialect

-- ============================================================ canonical forms

/-- The canonical form of a type. A type whose synonyms do not end is its own. -/
def TypeTable.desugar (types : TypeTable) (q : QualifiedType) : QualifiedType :=
  match types.canonical q with
  | .ok c => c
  | .error _ => q

/-- The unit with every type in it replaced by its canonical form. -/
def TranslationUnit.desugared (u : TranslationUnit) : TranslationUnit := u.retype u.types.desugar

/-- The setting of the unit without synonyms. -/
def Setting.desugared (s : Setting) : Setting := { s with unit := s.unit.desugared }

namespace TypeTable

variable {types : TypeTable} {q r : QualifiedType} {steps : Nat}

/-- The canonical form is where synonyms end, if they do. -/
private theorem desugar_of_canonical (canonical : types.canonical q = .ok r) :
    types.desugar q = r := by
  unfold desugar
  rw [canonical]

/-- More steps change nothing where fewer are enough. -/
theorem resolve_mono {more : Nat} (le : steps ≤ more) (ends : types.resolve steps q = .ok r) :
    types.resolve more q = .ok r :=
  (Within.refl types).resolve le ends

/-- A `const` on a type is one on its canonical form. -/
theorem resolve_const (isConst : Bool) :
    types.resolve steps ⟨q.id, isConst || q.isConst⟩ =
      (types.resolve steps q).map fun r => ⟨r.id, isConst || r.isConst⟩ := by
  induction steps generalizing q with
  | zero => rfl
  | succ steps ih =>
    unfold resolve
    cases look : types.shape q.id with
    | error fault => rfl
    | ok shape =>
      cases shape with
      | synonym name target =>
        show types.resolve steps ⟨target.id, isConst || q.isConst || target.isConst⟩ = _
        rw [Bool.or_assoc]
        exact ih (q := ⟨target.id, q.isConst || target.isConst⟩)
      | _ => rfl

end TypeTable

namespace TranslationUnit

variable {u : TranslationUnit} (c : u.Consistent) {q : QualifiedType}
include c

/-- They end for every type of a consistent unit. -/
theorem Consistent.canonical_eq_desugar (inside : u.Holds .types q.id.index) :
    u.types.canonical q = .ok (u.types.desugar q) := by
  obtain ⟨r, canonical, -⟩ := (c.canonical_ends (π := fun _ => False) inside).answer
  rw [canonical, TypeTable.desugar_of_canonical canonical]

/-- Following synonyms ends where it did. -/
theorem Consistent.canonical_desugared (q : QualifiedType) :
    u.desugared.types.canonical q = u.types.canonical q := by
  unfold TypeTable.canonical
  rw [desugared, size_retype]
  unfold TypeTable.resolve
  rw [shape_retype]
  cases look : u.types.shape q.id with
  | error fault => rfl
  | ok shape =>
    have inside : u.Holds .types q.id.index := holds_of_entry look
    have fits := c.shape_ends (π := fun _ => False) inside
    rw [look] at fits
    cases shape with
    | synonym name target =>
      -- what the synonym stands for is now where its own synonyms end
      obtain ⟨insideTarget, earlier⟩ := fits.components target List.mem_cons_self
      have enough : target.id.index < u.types.size := insideTarget
      obtain ⟨r, ends, -, shape, lookR, plain⟩ :=
        (c.resolve_ends (π := fun _ => False) insideTarget enough).answer
      have end_ : u.types.desugar target = r :=
        TypeTable.desugar_of_canonical (TypeTable.resolve_mono (Nat.le_succ _) ends)
      have again : (u.retype u.types.desugar).types.resolve u.types.size r = .ok r := by
        obtain ⟨size, isSize⟩ : ∃ k, u.types.size = k + 1 := ⟨u.types.size - 1, by omega⟩
        have lookR' : (u.retype u.types.desugar).types.shape r.id =
            .ok (shape.retype u.types.desugar) := by
          rw [shape_retype, lookR]
          rfl
        rw [isSize]
        exact resolve_of_plain lookR' (by rw [TypeShape.isSynonym_retype, plain])
      show TypeTable.resolve _ _
        ⟨(u.types.desugar target).id, _ || (u.types.desugar target).isConst⟩ =
          TypeTable.resolve _ _ ⟨target.id, _ || target.isConst⟩
      rw [TypeTable.resolve_const, TypeTable.resolve_const, ends, end_, again]
    | _ => rfl

/-- The shape of a canonical form is the one it had, with canonical parts. -/
private theorem Consistent.canonicalShape_desugared (q : QualifiedType) :
    u.desugared.types.canonicalShape q =
      (u.types.canonicalShape q).map (·.retype u.types.desugar) := by
  unfold TypeTable.canonicalShape
  rw [c.canonical_desugared]
  cases u.types.canonical q with
  | error fault => rfl
  | ok r => exact shape_retype r.id

-- ============================================================ spellings

/-- A canonical form is no further up than the type. -/
theorem Consistent.rank_desugar {typeRank : TypeId → Nat} (ranked : u.Ranked typeRank)
    (inside : u.Holds .types q.id.index) :
    u.Holds .types (u.types.desugar q).id.index
      ∧ typeRank (u.types.desugar q).id ≤ typeRank q.id := by
  obtain ⟨r, canonical, insideR, -⟩ := (c.canonical_ends (π := fun _ => False) inside).answer
  rw [TypeTable.desugar_of_canonical canonical]
  exact ⟨insideR, ranked.resolve_le canonical⟩

/-- Without synonyms a spelling may go deeper, but not deeper than the rank of its type. -/
theorem Consistent.spellingWithin_desugared_ends {typeRank : TypeId → Nat}
    (ranked : u.Ranked typeRank) {layers : Nat} {t : QualifiedType}
    (inside : u.Holds .types t.id.index) (enough : typeRank t.id < layers) :
    Ends (fun _ => False) (u.desugared.spellingWithin layers t) fun _ => True := by
  induction layers generalizing t with
  | zero => omega
  | succ layers ih =>
    obtain ⟨shape, look, fits⟩ := (c.shape_ends (π := fun _ => False) inside).answer
    -- a part ranks below the type, and the canonical form of a part no higher than the part
    have below {p : QualifiedType} (part : u.Part t.id p.id) :
        Ends (fun _ => False) (u.desugared.spellingWithin layers (u.types.desugar p))
          fun _ => True := by
      obtain ⟨insideP, le⟩ := c.rank_desugar ranked (c.holds_of_part part)
      have falls := ranked.part _ _ part
      exact ih insideP (by omega)
    have look' : u.desugared.types.shape t.id = .ok (shape.retype u.types.desugar) := by
      rw [desugared, shape_retype, look]
      rfl
    have recordOf {id : RecordId} (same : shape.retype u.types.desugar = .record id) :
        shape = .record id := by
      cases shape <;> cases same
      rfl
    unfold spellingWithin
    rw [look', ok_bind]
    suffices Ends (fun _ => False)
        (u.desugared.shapeSpelling (u.desugared.spellingWithin layers)
          (shape.retype u.types.desugar)) fun _ => True from
      .bind this fun _ _ => .pure trivial
    refine shapeSpelling_ends (fun id same => ?_) (fun id same => ?_) (fun p mem => ?_)
      fun id r p same found mem => ?_
    · rw [desugared, record_retype]
      obtain ⟨r, found, -⟩ :=
        (c.record_ends (π := fun _ => False) (fits.record id (recordOf same))).answer
      rw [found]
      exact .ok trivial
    · rw [desugared, recordName_retype]
      exact c.recordName_ends (fits.record id (recordOf same))
    · rw [TypeShape.components_retype] at mem
      obtain ⟨p, memP, rfl⟩ := List.mem_map.mp mem
      exact below (.component look memP)
    · rw [desugared, record_retype] at found
      obtain ⟨r, foundR, rfl⟩ := map_eq_ok.mp found
      obtain ⟨arg, memArg, same'⟩ := List.mem_map.mp mem
      cases arg with
      | type arg =>
        cases same'
        rw [recordOf same] at look
        exact below (.argument look foundR memArg)
      | integral value => cases same'
      | other text => cases same'

/-- In a founded unit every type can be spelled without synonyms. -/
theorem Consistent.exists_spelling_desugared (founded : u.TypesFounded) {t : QualifiedType}
    (inside : u.Holds .types t.id.index) : ∃ spelled, u.desugared.spelling t = .ok spelled := by
  obtain ⟨typeRank, ranked⟩ := c.exists_ranked founded
  obtain ⟨spelled, answer, -⟩ := (c.spellingWithin_desugared_ends ranked inside
    (Nat.lt_succ_of_lt (ranked.lt_size _ inside))).answer
  refine ⟨spelled, ?_⟩
  unfold spelling
  rw [show u.desugared.types.size = u.types.size from size_retype]
  exact answer

end TranslationUnit

-- ============================================================ kinds

namespace Setting

variable {s : Setting} {t : QualifiedType}

/-- Trust is read from scopes and not from types, so the settings of both units agree. -/
theorem of_desugared (u : TranslationUnit) (config : Config) :
    Setting.of u.desugared config = (Setting.of u config).map (·.desugared) := by
  unfold Setting.of TranslationUnit.desugared
  rw [TranslationUnit.taggedNamespaces_retype, bind_pure_map_result]
  rfl

/-- Whether a place is in user code is seen from its location and scope. -/
theorem isUserCode_desugared (location : Location) (scope : ScopeId) :
    s.desugared.isUserCode location scope = s.isUserCode location scope := by
  unfold isUserCode inUserCodeScope
  delta isTaggedUserCode
  rfl

/-- A record is the one it was, with canonical types in it. -/
theorem record_desugared (id : RecordId) :
    s.desugared.unit.record id = (s.unit.record id).map (·.retype s.unit.types.desugar) :=
  TranslationUnit.record_retype id

/-- And so is a function. -/
theorem function_desugared (id : FunctionId) :
    s.desugared.unit.function id = (s.unit.function id).map (·.retype s.unit.types.desugar) :=
  TranslationUnit.function_retype id

/-- And a variable. -/
theorem variableDecl_desugared (id : VariableId) :
    s.desugared.unit.variableDecl id =
      (s.unit.variableDecl id).map (·.retype s.unit.types.desugar) :=
  TranslationUnit.variableDecl_retype id

/-- And a statement. -/
theorem statement_desugared (id : StmtId) :
    s.desugared.unit.statement id = (s.unit.statement id).map (·.retype s.unit.types.desugar) :=
  TranslationUnit.statement_retype id

theorem recordName_desugared (id : RecordId) :
    s.desugared.unit.recordName id = s.unit.recordName id :=
  TranslationUnit.recordName_retype id

/-- Whether a record comes from the system is told by its location and scope. -/
theorem isSystemRecord_desugared (id : RecordId) :
    s.desugared.isSystemRecord id = s.isSystemRecord id := by
  unfold isSystemRecord
  rw [record_desugared, map_bind_result]
  refine bind_congr fun r => ?_
  rw [isUserCode_desugared]
  rfl

/-- A record is defined, and where, as it was. -/
theorem definedRecord_desugared (id : RecordId) :
    s.desugared.definedRecord id = s.definedRecord id := by
  unfold definedRecord
  simp only [record_desugared, map_bind_result, RecordDecl.isDefined_retype]
  rfl

private theorem functionName_desugared (id : FunctionId) :
    s.desugared.unit.functionName id = s.unit.functionName id :=
  TranslationUnit.functionName_retype id

/-- Whether a function is pure is told by its tags and its name. -/
theorem isPure_desugared (id : FunctionId) : s.desugared.isPure id = s.isPure id := by
  unfold isPure
  simp only [function_desugared, functionName_desugared, record_desugared, map_bind_result]
  rfl

theorem callOperators_desugared (id : RecordId) :
    s.desugared.callOperators id = s.callOperators id := by
  unfold callOperators
  simp only [function_desugared, record_desugared, map_bind_result, RecordDecl.methods_retype]
  rfl

section Types

variable (c : s.unit.Consistent) (t : QualifiedType)
include c

/-- Synonyms end in the same type. -/
theorem canonical_desugared : s.desugared.canonical t = s.canonical t :=
  c.canonical_desugared t

/-- A type has the shape that it had, with canonical parts. -/
theorem shape_desugared :
    s.desugared.shape t = (s.shape t).map (·.retype s.unit.types.desugar) :=
  c.canonicalShape_desugared t

/-- A canonical form stands for all that it is the form of. -/
theorem canonical_desugar : s.desugared.canonical (s.unit.types.desugar t) = s.canonical t := by
  rw [canonical_desugared c]
  unfold TypeTable.desugar
  split
  · next r canonical => exact (canonical_idem canonical).trans canonical.symm
  · rfl

/-- A type and its canonical form have one shape. -/
theorem shape_desugar : s.desugared.shape (s.unit.types.desugar t) = s.desugared.shape t := by
  show (s.desugared.canonical _ >>= _) = s.desugared.canonical _ >>= _
  rw [canonical_desugar c, canonical_desugared c]

/-- The layer of a type, seen from where the unit mentions the type. -/
theorem shape_member : s.desugared.shape (s.unit.types.desugar t) =
    (s.shape t).map (·.retype s.unit.types.desugar) := by
  rw [shape_desugar c, shape_desugared c]

/-- A type is of the record that it was of. -/
theorem recordOf_desugared : s.desugared.recordOf t = s.recordOf t := by
  unfold recordOf
  rw [shape_desugared c, map_bind_result]
  refine bind_congr fun shape => ?_
  cases shape <;> rfl

theorem definedRecordOf_desugared : s.desugared.definedRecordOf t = s.definedRecordOf t := by
  unfold definedRecordOf
  simp only [recordOf_desugared c, definedRecord_desugared]

/-- Unions are told by records. -/
theorem unionRecord_desugared : s.desugared.unionRecord t = s.unionRecord t := by
  unfold unionRecord
  simp only [definedRecordOf_desugared c, record_desugared, map_bind_result]
  rfl

/-- The arguments of a template are looked up in canonical form, which they have already. -/
theorem templateArg_desugared (n : Nat) : s.desugared.templateArg t n = s.templateArg t n := by
  unfold templateArg
  rw [recordOf_desugared c]
  refine bind_congr fun id? => ?_
  cases id? with
  | none => rfl
  | some id =>
    simp only [record_desugared, map_bind_result]
    refine bind_congr fun r => ?_
    simp only [RecordDecl.retype, List.getElem?_map]
    cases r.templateArgs[n]? with
    | none => rfl
    | some arg =>
      cases arg with
      | type arg =>
        show (do return some (← s.desugared.canonical (s.unit.types.desugar arg)) : Result _) = _
        rw [canonical_desugar c]
      | integral value => rfl
      | other text => rfl

/-- So is what a pointer points to. -/
theorem pointee_desugared : s.desugared.pointee t = s.pointee t := by
  unfold pointee
  rw [shape_desugared c, map_bind_result]
  refine bind_congr fun shape => ?_
  cases shape with
  | pointer p =>
    show (do return some (← s.desugared.canonical (s.unit.types.desugar p)) : Result _) = _
    rw [canonical_desugar c]
  | _ => exact templateArg_desugared c t 0

/-- A type is named after its record. -/
theorem typeName_desugared : s.desugared.typeName t = s.typeName t := by
  show (s.desugared.shape t >>= _) = s.shape t >>= _
  rw [shape_desugared c, map_bind_result]
  refine bind_congr fun shape => ?_
  cases shape with
  | record id => exact recordName_desugared id
  | _ => rfl

/-- Pointers of a library are told by the names of their types. -/
theorem isSafePtr_desugared : s.desugared.isSafePtr t = s.isSafePtr t := by
  unfold isSafePtr
  rw [typeName_desugared c]
  rfl

theorem isOwningPtr_desugared : s.desugared.isOwningPtr t = s.isOwningPtr t := by
  unfold isOwningPtr
  rw [typeName_desugared c]
  rfl

theorem isNullablePtr_desugared : s.desugared.isNullablePtr t = s.isNullablePtr t := by
  unfold isNullablePtr
  rw [typeName_desugared c]
  rfl

theorem isStdFunction_desugared : s.desugared.isStdFunction t = s.isStdFunction t := by
  unfold isStdFunction
  rw [typeName_desugared c]

theorem isAwaitable_desugared : s.desugared.isAwaitable t = s.isAwaitable t := by
  unfold isAwaitable
  simp only [recordOf_desugared c, recordName_desugared, record_desugared, map_bind_result]
  rfl

theorem isLambda_desugared : s.desugared.isLambda t = s.isLambda t := by
  unfold isLambda
  simp only [recordOf_desugared c, record_desugared, map_bind_result]
  rfl

/-- References are told by shapes. -/
theorem isReference_desugared : s.desugared.isReference t = s.isReference t := by
  unfold isReference
  simp only [shape_desugared c, map_bind_result, TypeShape.isReference_retype]

/-- A raw pointer is one by its canonical form. -/
theorem isRawPointer_member :
    s.desugared.isRawPointer (s.unit.types.desugar t) = s.isRawPointer t := by
  unfold isRawPointer
  simp only [shape_member c, map_bind_result, TypeShape.isPointer_retype]

end Types

section Records

variable (c : s.unit.Consistent)
include c

/-- The bases of a record are records, whatever they are called. -/
private theorem derivesFromNodeWithin_desugared (generations : Nat) (id : RecordId) :
    s.desugared.derivesFromNodeWithin generations id = s.derivesFromNodeWithin generations id := by
  induction generations generalizing id with
  | zero => rfl
  | succ generations ih =>
    unfold derivesFromNodeWithin
    rw [recordName_desugared]
    refine bind_congr fun name => ?_
    split
    · rfl
    · rw [record_desugared, map_bind_result]
      refine bind_congr fun r => ?_
      rw [RecordDecl.bases_retype]
      refine anyM_map_result (fun base => ?_) r.bases
      show (s.desugared.recordOf (s.unit.types.desugar base.type) >>= _) = _
      rw [recordOf_congr (shape_desugar c base.type), recordOf_desugared c]
      simp only [ih]

theorem derivesFromNode_desugared (id : RecordId) :
    s.desugared.derivesFromNode id = s.derivesFromNode id := by
  unfold derivesFromNode
  rw [derivesFromNodeWithin_desugared c, show s.desugared.unit.records.size = _ from Array.size_map]

end Records

end Setting

end SafeDialect
