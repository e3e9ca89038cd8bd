/-
Names and kinds in a consistent unit.

Qualified names and the search for a scope tagged as user code go outwards through scopes, each of
them earlier than the one before, so they end. Spellings go through the parts of a type and end if
no type contains itself. Everything else looks at a few entries.
-/
import SafeDialect.Names.Spelling
import SafeDialect.Setting.Kinds
import SafeDialect.Proofs.Program.Founded

namespace SafeDialect

namespace TranslationUnit

variable {u : TranslationUnit} {π : Fault → Prop}

-- ============================================================ names

/-- The walk outwards ends, because each scope is earlier than the one before and the steps are
enough for the slot that it starts from. -/
theorem Consistent.pathFrom_ends (c : u.Consistent) {steps : Nat} {inner : List String}
    {scope : Option ScopeId}
    (inside : ∀ id, scope = some id → u.Holds .scopes id.index ∧ id.index < steps) :
    Ends π (u.pathFrom steps inner scope) fun _ => True := by
  induction steps generalizing inner scope with
  | zero =>
    cases scope with
    | none => exact .ok trivial
    | some id => exact absurd (inside id rfl).2 (Nat.not_lt_zero _)
  | succ steps ih =>
    cases scope with
    | none => exact .ok trivial
    | some id =>
      obtain ⟨insideId, enough⟩ := inside id rfl
      have here := c.scope_ends (π := π) insideId
      unfold pathFrom
      cases look : u.scope id with
      | error fault =>
        rw [look] at here
        exact here
      | ok s =>
        rw [look] at here
        refine ih fun parent known => ?_
        obtain ⟨insideParent, earlier⟩ := here parent known
        exact ⟨insideParent, by omega⟩

/-- A name with its qualifier costs one walk outwards. -/
private theorem Consistent.qualifiedName_ends (c : u.Consistent) {id : ScopeId} {name : String}
    (inside : u.Holds .scopes id.index) : Ends π (u.qualifiedName id name) fun _ => True := by
  have path : Ends π (u.path id) fun _ => True := by
    refine c.pathFrom_ends fun _ same => ?_
    cases same
    exact ⟨inside, Nat.lt_succ_of_lt inside⟩
  have qualifier : Ends π (u.qualifier id) fun _ => True := .bind path fun _ _ => .pure trivial
  unfold qualifiedName
  split
  · exact .pure trivial
  · exact .bind qualifier fun _ _ => .pure trivial

/-- A scope of the unit has a name. -/
theorem Consistent.scopeName_ends (c : u.Consistent) {id : ScopeId}
    (inside : u.Holds .scopes id.index) : Ends π (u.scopeName id) fun _ => True := by
  refine .bind (c.scope_ends inside) fun s earlier => ?_
  split
  · next parent name known _ => exact c.qualifiedName_ends (earlier parent known).1
  · exact .pure trivial

/-- A record of the unit has one. -/
theorem Consistent.recordName_ends (c : u.Consistent) {id : RecordId}
    (inside : u.Holds .records id.index) : Ends π (u.recordName id) fun _ => True :=
  .bind (c.record_ends inside) fun _ fits => c.qualifiedName_ends fits.scope

private theorem Consistent.functionName_ends (c : u.Consistent) {id : FunctionId}
    (inside : u.Holds .functions id.index) : Ends π (u.functionName id) fun _ => True :=
  .bind (c.function_ends inside) fun _ fits => c.qualifiedName_ends fits.scope

/-- Every type has a name, be it empty: only that of a record is looked for. -/
theorem Consistent.typeName_ends (c : u.Consistent) {t : QualifiedType}
    (inside : u.Holds .types t.id.index) : Ends π (u.typeName t) fun _ => True := by
  refine .bind (c.canonicalShape_ends inside) fun shape fits => ?_
  split
  · exact c.recordName_ends (fits.2.2 _ rfl)
  · exact .pure trivial

-- ============================================================ spellings

/-- A layer can be spelt if its record can be found and named, and if its components and the type
arguments of its record can be spelt. -/
theorem shapeSpelling_ends {spell : QualifiedType → Result String} {shape : TypeShape}
    (record : ∀ id, shape = .record id → Ends π (u.record id) fun _ => True)
    (named : ∀ id, shape = .record id → Ends π (u.recordName id) fun _ => True)
    (components : ∀ p ∈ shape.components, Ends π (spell p) fun _ => True)
    (arguments : ∀ id r p, shape = .record id → u.record id = .ok r → .type p ∈ r.templateArgs →
      Ends π (spell p) fun _ => True) :
    Ends π (u.shapeSpelling spell shape) fun _ => True := by
  cases shape with
  | pointer p | lvalueReference p | rvalueReference p =>
    exact .bind (components p List.mem_cons_self) fun _ _ => .pure trivial
  | array element size =>
    cases size <;> exact .bind (components element List.mem_cons_self) fun _ _ => .pure trivial
  | record id =>
    refine .bind_eq (record id rfl) fun r found _ => ?_
    refine .bind (named id rfl) fun name _ => ?_
    split
    · exact .pure trivial
    · refine .bind (ends_mapM (fun _ => True) fun arg mem => ?_) fun _ _ => .pure trivial
      cases arg with
      | type p => exact arguments id r p rfl found mem
      | integral value => exact .pure trivial
      | other text => exact .pure trivial
  | function ret params =>
    refine .bind (ends_mapM (fun _ => True) fun p mem => ?_) fun _ _ => ?_
    · exact components p (List.mem_cons_of_mem _ mem)
    · exact .bind (components ret List.mem_cons_self) fun _ _ => .pure trivial
  | _ => exact .pure trivial

/-- A spelling goes no deeper than the rank of its type. -/
theorem Consistent.spellingWithin_ends (c : u.Consistent) {typeRank : TypeId → Nat}
    (ranked : ¬ π .endless → u.Ranked typeRank) {layers : Nat} {t : QualifiedType}
    (inside : u.Holds .types t.id.index) (enough : ¬ π .endless → typeRank t.id < layers) :
    Ends π (u.spellingWithin layers t) fun _ => True := by
  induction layers generalizing t with
  | zero => exact .exhausted enough
  | succ layers ih =>
    refine .bind_eq (c.shape_ends inside) fun shape look fits => ?_
    -- the qualifiers are only put around the spelling of the layer
    suffices Ends π (u.shapeSpelling (u.spellingWithin layers) shape) fun _ => True from
      .bind this fun _ _ => .pure trivial
    refine shapeSpelling_ends (fun id same => ?_) (fun id same => ?_) (fun p mem => ?_)
      fun id r p same found mem => ?_
    · exact .mono (c.record_ends (fits.record id same)) fun _ _ => trivial
    · exact c.recordName_ends (fits.record id same)
    · refine ih (fits.components p mem).1 fun strict => ?_
      have falls := (ranked strict).part _ _ (.component look mem)
      have bound := enough strict
      omega
    · subst same
      have part : u.Part t.id p.id := .argument look found mem
      refine ih (c.holds_of_part part) fun strict => ?_
      have falls := (ranked strict).part _ _ part
      have bound := enough strict
      omega

/-- Spelling descends to components and arguments. It ends where these have lower ranks, and may
else be endless. -/
theorem Consistent.spelling_ends (c : u.Consistent) {typeRank : TypeId → Nat}
    (ranked : ¬ π .endless → u.Ranked typeRank) {t : QualifiedType}
    (inside : u.Holds .types t.id.index) : Ends π (u.spelling t) fun _ => True := by
  refine c.spellingWithin_ends ranked inside fun strict => ?_
  exact Nat.lt_succ_of_lt ((ranked strict).lt_size _ inside)

end TranslationUnit

-- ============================================================ settings

namespace Setting

variable {s : Setting} {π : Fault → Prop}

/-- A consistent unit makes a setting, since the namespaces that are tagged can all be named. -/
theorem of_ends {u : TranslationUnit} (c : u.Consistent) (config : Config) :
    Ends π (Setting.of u config) fun s => s.unit = u ∧ s.config = config := by
  suffices Ends π u.taggedNamespaces fun _ => True from .bind this fun _ _ => .pure ⟨rfl, rfl⟩
  refine Ends.mono (ends_mapM (fun _ => True) fun id mem => ?_) fun _ _ => trivial
  obtain ⟨index, inRange, rfl⟩ := List.mem_map.mp (List.mem_filter.mp mem).1
  exact c.scopeName_ends (List.mem_range.mp inRange)

section

variable {t : QualifiedType} {name : String} (named : s.typeName t = .ok name)
include named

/-- Whether a type is a smart pointer is read off its name. -/
theorem isOwningPtr_eq : s.isOwningPtr t = .ok (s.names.isOwningPtr name) := by
  simp only [isOwningPtr, named, ok_bind]
  rfl

theorem isSafePtr_eq : s.isSafePtr t = .ok (s.names.isSafePtr name) := by
  simp only [isSafePtr, named, ok_bind]
  rfl

/-- So is whether it is a nullable one. -/
theorem isNullablePtr_eq : s.isNullablePtr t = .ok (s.names.isNullablePtr name) := by
  simp only [isNullablePtr, named, ok_bind]
  rfl

end

variable (c : s.unit.Consistent)
include c

/-- The search for a scope that is tagged as user code takes the way outwards that names take. -/
private theorem isTaggedUserCode_ends {steps : Nat} {scope : Option ScopeId}
    (inside : ∀ id, scope = some id → s.unit.Holds .scopes id.index ∧ id.index < steps) :
    Ends π (s.isTaggedUserCode steps scope) fun _ => True := by
  induction steps generalizing scope with
  | zero =>
    cases scope with
    | none => exact .ok trivial
    | some id => exact absurd (inside id rfl).2 (Nat.not_lt_zero _)
  | succ steps ih =>
    cases scope with
    | none => exact .ok trivial
    | some id =>
      obtain ⟨insideId, enough⟩ := inside id rfl
      have here := c.scope_ends (π := π) insideId
      unfold isTaggedUserCode
      cases look : s.unit.scope id with
      | error fault =>
        rw [look] at here
        exact here
      | ok scope =>
        rw [look] at here
        dsimp only
        split
        · exact .ok trivial
        · refine ih fun parent known => ?_
          obtain ⟨insideParent, earlier⟩ := here parent known
          exact ⟨insideParent, by omega⟩

/-- Whether a place in a scope is user code is found out. -/
theorem isUserCode_ends {location : Location} {scope : ScopeId}
    (inside : s.unit.Holds .scopes scope.index) :
    Ends π (s.isUserCode location scope) fun _ => True := by
  unfold isUserCode
  split
  · refine isTaggedUserCode_ends c fun id same => ?_
    cases same
    exact ⟨inside, Nat.lt_succ_of_lt inside⟩
  · exact .pure trivial

/-- So is whether a record is library code. -/
theorem isSystemRecord_ends {id : RecordId} (inside : s.unit.Holds .records id.index) :
    Ends π (s.isSystemRecord id) fun _ => True := by
  refine .bind (c.record_ends inside) fun r fits => ?_
  exact .bind (isUserCode_ends c fits.scope) fun _ _ => .pure trivial

-- ============================================================ records behind types

/-- The record that a type is, synonyms followed, is in the unit. -/
theorem recordOf_ends {t : QualifiedType} (inside : s.unit.Holds .types t.id.index) :
    Ends π (s.recordOf t) fun r => ∀ id, r = some id → s.unit.Holds .records id.index := by
  refine .bind (c.canonicalShape_ends inside) fun shape fits => ?_
  split
  · next id =>
    refine .pure ?_
    rintro _ ⟨⟩
    exact fits.2.2 id rfl
  · exact .pure fun _ h => nomatch h

omit c in
/-- A type that is a record has a record for its canonical layer. -/
theorem canonicalShape_of_recordOf {t : QualifiedType} {id : RecordId}
    (found : s.recordOf t = .ok (some id)) :
    s.unit.types.canonicalShape t = .ok (.record id) := by
  obtain ⟨shape, look, same⟩ := bind_eq_ok.mp found
  split at same
  · cases same
    exact look
  · cases same

/-- The record that defines another one is in the unit: it is the record itself or its
template. -/
theorem definedRecord_ends {id : RecordId} (inside : s.unit.Holds .records id.index) :
    Ends π (s.definedRecord id) fun r => ∀ d, r = some d → s.unit.Holds .records d.index := by
  refine .bind (c.record_ends inside) fun r fits => ?_
  split
  · refine .pure ?_
    rintro _ ⟨⟩
    exact inside
  · split
    · exact .pure fun _ h => nomatch h
    · next pattern known =>
      refine .bind (c.record_ends (fits.pattern pattern known)) fun p _ => .pure ?_
      intro d same
      split at same
      · cases same
        exact fits.pattern pattern known
      · cases same

/-- So is the one that defines what a type is. -/
theorem definedRecordOf_ends {t : QualifiedType} (inside : s.unit.Holds .types t.id.index) :
    Ends π (s.definedRecordOf t) fun r => ∀ d, r = some d → s.unit.Holds .records d.index := by
  refine .bind (recordOf_ends c inside) fun r insideR => ?_
  cases r with
  | some id => exact definedRecord_ends c (insideR id rfl)
  | none => exact .pure fun _ h => nomatch h

/-- A union is looked for like any record. -/
theorem unionRecord_ends {t : QualifiedType} (inside : s.unit.Holds .types t.id.index) :
    Ends π (s.unionRecord t) fun r => ∀ d, r = some d → s.unit.Holds .records d.index := by
  refine .bind (definedRecordOf_ends c inside) fun r insideR => ?_
  cases r with
  | some id =>
    refine .bind (c.record_ends (insideR id rfl)) fun decl _ => .pure ?_
    intro d same
    split at same
    · cases same
      exact insideR id rfl
    · cases same
  | none => exact .pure fun _ h => nomatch h

/-- The argument of a record is a type of the unit. -/
theorem templateArg_ends {t : QualifiedType} {n : Nat} (inside : s.unit.Holds .types t.id.index) :
    Ends π (s.templateArg t n) fun r => ∀ arg, r = some arg → s.unit.Holds .types arg.id.index := by
  refine .bind (recordOf_ends c inside) fun r insideR => ?_
  cases r with
  | none => exact .pure fun _ h => nomatch h
  | some id =>
    refine .bind (c.record_ends (insideR id rfl)) fun decl fits => ?_
    split
    · next arg known =>
      have insideArg := fits.args arg (List.mem_of_getElem? known)
      refine .bind (c.canonical_ends insideArg) fun r insideC => .pure ?_
      rintro _ ⟨⟩
      exact insideC.1
    · exact .pure fun _ h => nomatch h

/-- What a pointer or smart pointer leads to is a type of the unit. -/
theorem pointee_ends {t : QualifiedType} (inside : s.unit.Holds .types t.id.index) :
    Ends π (s.pointee t) fun r => ∀ p, r = some p → s.unit.Holds .types p.id.index := by
  refine .bind (c.canonicalShape_ends inside) fun shape fits => ?_
  split
  · next p =>
    have insideP := fits.2.1 p List.mem_cons_self
    refine .bind (c.canonical_ends insideP) fun r insideC => .pure ?_
    rintro _ ⟨⟩
    exact insideC.1
  · exact templateArg_ends c inside

-- ============================================================ kinds

/-- The layer that a type comes down to is no synonym and made of what is in the unit. -/
theorem shape_ends {t : QualifiedType} (inside : s.unit.Holds .types t.id.index) :
    Ends π (s.shape t) fun shape =>
      shape.isSynonym = false ∧ (∀ p ∈ shape.components, s.unit.Holds .types p.id.index)
        ∧ ∀ id, shape = .record id → s.unit.Holds .records id.index :=
  c.canonicalShape_ends inside

theorem typeName_ends {t : QualifiedType} (inside : s.unit.Holds .types t.id.index) :
    Ends π (s.typeName t) fun _ => True :=
  c.typeName_ends inside

theorem isSafePtr_ends {t : QualifiedType} (inside : s.unit.Holds .types t.id.index) :
    Ends π (s.isSafePtr t) fun _ => True :=
  .bind (c.typeName_ends inside) fun _ _ => .pure trivial

theorem isNullablePtr_ends {t : QualifiedType} (inside : s.unit.Holds .types t.id.index) :
    Ends π (s.isNullablePtr t) fun _ => True :=
  .bind (c.typeName_ends inside) fun _ _ => .pure trivial

theorem isStdFunction_ends {t : QualifiedType} (inside : s.unit.Holds .types t.id.index) :
    Ends π (s.isStdFunction t) fun _ => True :=
  .bind (c.typeName_ends inside) fun _ _ => .pure trivial

/-- Whether a type can be awaited depends on its name and, for a record, on how it is tagged. -/
theorem isAwaitable_ends {t : QualifiedType} (inside : s.unit.Holds .types t.id.index) :
    Ends π (s.isAwaitable t) fun _ => True := by
  refine .bind (recordOf_ends c inside) fun r insideR => ?_
  cases r with
  | none => exact .pure trivial
  | some id =>
    refine .bind (c.recordName_ends (insideR id rfl)) fun _ _ => ?_
    exact .bind (c.record_ends (insideR id rfl)) fun _ _ => .pure trivial

/-- Only a record can be a lambda, and its declaration says so. -/
theorem isLambda_ends {t : QualifiedType} (inside : s.unit.Holds .types t.id.index) :
    Ends π (s.isLambda t) fun _ => True := by
  refine .bind (recordOf_ends c inside) fun r insideR => ?_
  cases r with
  | none => exact .pure trivial
  | some id => exact .bind (c.record_ends (insideR id rfl)) fun _ _ => .pure trivial

/-- Whether a function is free of side effects depends on its name and on tags, its own and those of
its template and record. -/
theorem isPure_ends {id : FunctionId} (inside : s.unit.Holds .functions id.index) :
    Ends π (s.isPure id) fun _ => True := by
  refine .bind (c.function_ends inside) fun f fits => ?_
  -- an instance of a template has the purity of the template
  have insideMade : s.unit.Holds .functions (f.pattern.getD id).index := by
    cases known : f.pattern with
    | none => exact inside
    | some pattern => exact fits.pattern pattern known
  refine .bind (c.functionName_ends insideMade) fun _ _ => ?_
  split
  · exact .pure trivial
  · refine .bind (c.function_ends insideMade) fun pattern fitsPattern => ?_
    split
    · exact .pure trivial
    · split
      · next parent known =>
        split
        · exact .bind (c.record_ends (fitsPattern.parent parent known)) fun _ _ => .pure trivial
        · exact .pure trivial
      · exact .pure trivial

/-- The call operators of a record are functions of the unit. -/
theorem callOperators_ends {id : RecordId} (inside : s.unit.Holds .records id.index) :
    Ends π (s.callOperators id) fun ops => ∀ op ∈ ops, s.unit.Holds .functions op.index := by
  refine .bind (c.record_ends inside) fun r fits => ?_
  refine Ends.mono (ends_filterM fun m mem => ?_) fun ops sub op mem => fits.methods op (sub mem)
  exact .bind (c.function_ends (fits.methods m mem)) fun _ _ => .pure trivial

/-- Looking for a node base ends, unless a record is its own base. -/
theorem derivesFromNodeWithin_ends {baseRank : RecordId → Nat}
    (ranked : ¬ π .endless → s.unit.BasesRanked baseRank) {generations : Nat} {id : RecordId}
    (inside : s.unit.Holds .records id.index)
    (enough : ¬ π .endless → baseRank id < generations) :
    Ends π (s.derivesFromNodeWithin generations id) fun _ => True := by
  induction generations generalizing id with
  | zero => exact .exhausted enough
  | succ generations ih =>
    unfold derivesFromNodeWithin
    refine .bind (c.recordName_ends inside) fun name _ => ?_
    split
    · exact .pure trivial
    · refine .bind_eq (c.record_ends inside) fun r look fits => ?_
      refine ends_anyM fun base mem => ?_
      refine .bind_eq (recordOf_ends c (fits.bases base mem)) fun parent? found insideParent => ?_
      cases parent? with
      | none => exact .pure trivial
      | some parent =>
        refine ih (insideParent parent rfl) fun strict => ?_
        have falls := (ranked strict).base id parent
          ⟨r, base, look, mem, canonicalShape_of_recordOf found⟩
        have bound := enough strict
        omega

/-- The search through bases ends where bases have lower ranks, and may else be endless. -/
theorem derivesFromNode_ends {baseRank : RecordId → Nat}
    (ranked : ¬ π .endless → s.unit.BasesRanked baseRank) {id : RecordId}
    (inside : s.unit.Holds .records id.index) : Ends π (s.derivesFromNode id) fun _ => True :=
  derivesFromNodeWithin_ends c ranked inside fun strict =>
    Nat.lt_succ_of_lt ((ranked strict).lt_size id inside)

end Setting

end SafeDialect
