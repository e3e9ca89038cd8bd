/-
Classifications do not see synonyms.

A classification of a type in a unit and one of the same type in the unit without synonyms run side
by side: they look at the same records in the same order, give the same answers, and make remarks
at the same places. The one thing that shows a synonym is the spelling of a type that a remark
quotes.
-/
import SafeDialect.Classifier.Judge
import SafeDialect.Proofs.Classifier.Lockstep
import SafeDialect.Proofs.Setting.Desugar

namespace SafeDialect

/-- Messages that are the same, up to the spelling of a type that they quote: one as the unit spells
it, the other as the unit without synonyms does. -/
def TranslationUnit.Respelled (u : TranslationUnit) (message message' : String) : Prop :=
  message' = message ∨ ∃ t spelled spelled' before after, u.spelling t = .ok spelled
    ∧ u.desugared.spelling t = .ok spelled' ∧ message = before ++ spelled ++ after
    ∧ message' = before ++ spelled' ++ after

/-- A message that quotes no type. -/
theorem TranslationUnit.Respelled.refl {u : TranslationUnit} (message : String) :
    u.Respelled message message :=
  .inl rfl

/-- A message that quotes the spelling of a type. -/
theorem TranslationUnit.Respelled.quote {u : TranslationUnit} {t : QualifiedType}
    {spelled spelled' before after : String} (spelling : u.spelling t = .ok spelled)
    (spelling' : u.desugared.spelling t = .ok spelled') :
    u.Respelled (before ++ spelled ++ after) (before ++ spelled' ++ after) :=
  .inr ⟨t, spelled, spelled', before, after, spelling, spelling', rfl, rfl⟩

namespace Inspector

/-- The inspector of the unit without synonyms. -/
def desugared (i : Inspector) : Inspector := ⟨i.setting.desugared, i.userCodeMode⟩

/-- The inspector without synonyms is of the setting without synonyms. -/
@[simp]
theorem setting_desugared {i : Inspector} : i.desugared.setting = i.setting.desugared := rfl

/-- Two steps that keep up with each other, up to the spellings in what they say. -/
def Lockstep (i : Inspector) {α : Type} (act act' : Inspect α) : Prop :=
  Tracks (Session.Alike i.setting.unit.Respelled) act act'

variable {i : Inspector} {ask ask' : Ask} {t arg : QualifiedType} {n : Nat} {id defined : RecordId}
  (c : i.setting.unit.Consistent)

/-- What is wrong with a field of a union is told by its layer alone. -/
private theorem unionComplaint?_retype {κ : QualifiedType → QualifiedType} (shape : TypeShape) :
    unionComplaint? (shape.retype κ) = unionComplaint? shape := by
  cases shape <;> rfl

section Types

include c

private theorem unionField_lockstep (f : Field) : i.Lockstep (i.unionField f)
    (i.desugared.unionField (f.retype i.setting.unit.types.desugar)) := by
  refine .lookAs (Setting.shape_member c f.type) fun shape _ => ?_
  rw [unionComplaint?_retype]
  split
  · exact .complaint (.refl _)
  · exact .pure

/-- The fields of a union are looked at in the same order, and the same one is complained about. -/
theorem unionRecord_lockstep : i.Lockstep (i.unionRecord id) (i.desugared.unionRecord id) := by
  refine .look (Setting.definedRecord_desugared id) fun defined? _ => ?_
  cases defined? with
  | none => exact .pure
  | some defined =>
    refine .lookAs (Setting.record_desugared defined) fun r _ => ?_
    rw [RecordDecl.fields_retype]
    exact .allM fun f _ => unionField_lockstep c f

/-- A container stands where it stood. -/
private theorem containerLocation_desugared (t : QualifiedType) :
    i.desugared.containerLocation t = i.containerLocation t := by
  show (i.setting.desugared.recordOf t >>= _) = _
  rw [Setting.recordOf_desugared c]
  refine bind_congr fun id? => ?_
  cases id? with
  | none => rfl
  | some id =>
    show (i.setting.desugared.unit.record id >>= _) = _
    rw [Setting.record_desugared, map_bind_result]
    rfl

private theorem remarkAtContainer_lockstep {message message' : String}
    (respelled : i.setting.unit.Respelled message message') :
    i.Lockstep (i.remarkAtContainer t message) (i.desugared.remarkAtContainer t message') :=
  .look (containerLocation_desugared c t) fun _ _ => .remark respelled

/-- The same argument is missing, or the same one is there. -/
private theorem requiredArg_lockstep :
    i.Lockstep (i.requiredArg t n) (i.desugared.requiredArg t n) := by
  refine .look (Setting.templateArg_desugared c t n) fun arg? _ => ?_
  cases arg? with
  | some arg => exact .pure
  | none => exact .bind (remarkAtContainer_lockstep c (.refl _)) fun _ => .pure

omit c in
/-- The same function is the first with side effects. -/
theorem allPure_lockstep {message message' : String} {operators : List FunctionId}
    (respelled : i.setting.unit.Respelled message message') :
    i.Lockstep (i.allPure message operators) (i.desugared.allPure message' operators) := by
  induction operators with
  | nil => exact .pure
  | cons op rest ih =>
    refine .look (Setting.isPure_desugared op) fun isPure _ => ?_
    cases isPure with
    | true => exact ih
    | false => exact .lookAs (Setting.function_desugared op) fun f _ => .complaint respelled

omit c in
/-- A method is judged by its declaration, in which only the result is retyped. -/
theorem deepConstMethod_lockstep (f : FunctionId) :
    i.Lockstep (i.deepConstMethod f) (i.desugared.deepConstMethod f) := by
  refine .lookAs (Setting.function_desugared f) fun f _ => ?_
  rw [show deepConstComplaint? (f.retype _) = deepConstComplaint? f from rfl]
  cases deepConstComplaint? f with
  | some complaint => exact .complaint (.refl _)
  | none => exact .pure

omit c in
/-- So is it in a naked struct. -/
theorem nakedMethod_lockstep (r : RecordDecl) (f : FunctionId) :
    i.Lockstep (i.nakedMethod r f)
      (i.desugared.nakedMethod (r.retype i.setting.unit.types.desugar) f) := by
  refine .lookAs (Setting.function_desugared f) fun f _ => ?_
  show i.Lockstep _ (if isNakedMethod r f then _ else _)
  split
  · exact .pure
  · exact .complaint (.refl _)

variable (founded : i.setting.unit.TypesFounded)

section Spellings

include founded

/-- A spelling is there without synonyms as well. -/
theorem spell_lockstep {α : Type} {f f' : String → Inspect α}
    (next : ∀ spelled spelled', i.setting.unit.spelling arg = .ok spelled →
      i.setting.unit.desugared.spelling arg = .ok spelled' → i.Lockstep (f spelled) (f' spelled')) :
    i.Lockstep (liftM (i.setting.unit.spelling arg) >>= f)
      (liftM (i.desugared.setting.unit.spelling arg) >>= f') := by
  cases spelling : i.setting.unit.spelling arg with
  | error fault => exact .error
  | ok spelled =>
    have inside : i.setting.unit.Holds .types arg.id.index := by
      obtain ⟨shape, look, -⟩ := bind_eq_ok.mp spelling
      exact TranslationUnit.holds_of_entry look
    obtain ⟨spelled', spelling'⟩ := c.exists_spelling_desugared founded inside
    rw [show i.desugared.setting.unit.spelling arg = _ from spelling']
    exact next spelled spelled' spelling spelling'

/-- This is where a type is quoted, so the two remarks differ by its spelling. -/
private theorem remarkOnArg_lockstep {complaint : String} :
    i.Lockstep (i.remarkOnArg t n arg complaint) (i.desugared.remarkOnArg t n arg complaint) := by
  refine .look (containerLocation_desugared c t) fun location _ => ?_
  refine spell_lockstep c founded fun spelled spelled' spelling spelling' => .remark ?_
  have quotes (spelled : String) : s!"template parameter {n}, '{spelled}' {complaint}" =
      s!"template parameter {n}, '" ++ spelled ++ s!"' {complaint}" := by
    simp only [String.append_assoc]
    rfl
  rw [quotes, quotes]
  exact .quote spelling spelling'

/-- The same call operators are looked at. -/
private theorem argIsPure_lockstep :
    i.Lockstep (i.argIsPure t n arg) (i.desugared.argIsPure t n arg) := by
  refine spell_lockstep c founded fun spelled spelled' spelling spelling' => ?_
  refine .look (Setting.definedRecordOf_desugared c arg) fun defined? _ => ?_
  cases defined? with
  | none => exact .bind (remarkAtContainer_lockstep c (.quote spelling spelling')) fun _ => .pure
  | some id =>
    refine .look (Setting.callOperators_desugared id) fun operators _ => ?_
    cases operators with
    | nil => exact .bind (remarkAtContainer_lockstep c (.quote spelling spelling')) fun _ => .pure
    | cons op rest => exact allPure_lockstep (.quote spelling spelling')

end Spellings

-- ============================================================ kinds of types

private theorem stackOnly_desugared (t : QualifiedType) :
    i.desugared.stackOnly t = i.stackOnly t := by
  unfold stackOnly
  simp only [setting_desugared, Setting.shape_desugared c, map_bind_result,
    Setting.isNullablePtr_desugared c, Setting.definedRecordOf_desugared c,
    Setting.record_desugared, Setting.recordName_desugared]
  refine bind_congr fun shape => ?_
  cases shape <;> rfl

/-- Whether a type is deterministic by its kind is read off names and declarations. -/
private theorem isDeterministicKind_desugared (t : QualifiedType) :
    i.desugared.isDeterministicKind t = i.isDeterministicKind t := by
  unfold isDeterministicKind
  simp only [setting_desugared, Setting.isAwaitable_desugared c, Setting.isLambda_desugared c,
    Setting.isSafePtr_desugared c, Setting.isNullablePtr_desugared c]

end Types

-- ============================================================ the classifier

/-- Questions that are answered alike, and that a canonical form answers for its type. -/
structure AskAlike (i : Inspector) (ask ask' : Ask) : Prop where
  same : ∀ a t, i.Lockstep (ask a t) (ask' a t)
  desugar : ∀ a t, ask' a (i.setting.unit.types.desugar t) = ask' a t

/-- A question about a type that the unit mentions. -/
theorem AskAlike.member (asks : i.AskAlike ask ask') (a : Aspect) (t : QualifiedType) :
    i.Lockstep (ask a t) (ask' a (i.setting.unit.types.desugar t)) := by
  rw [asks.desugar]
  exact asks.same a t

section Aggregates

variable (asks : i.AskAlike ask ask')
include c asks

/-- A field is asked about with and without its synonyms, and both ways it comes down to the same
type. -/
private theorem nakedField_lockstep (f : Field) : i.Lockstep (i.nakedField ask f)
    (i.desugared.nakedField ask' (f.retype i.setting.unit.types.desugar)) := by
  have reasons (a : Aspect) (t : QualifiedType) (location : Location) (message : String) :
      i.Lockstep
        (do
          let _ ← ask a t
          Inspect.remark location message
          return false)
        (do
          let _ ← ask' a t
          Inspect.remark location message
          return false) :=
    .bind (asks.same a t) fun _ => .complaint (.refl _)
  refine .look (Setting.canonical_desugar c f.type) fun t _ => ?_
  refine .bind (.quietly (asks.same .heapSafe t)) fun safe => ?_
  split
  · exact .pure
  refine .bind (.quietly (asks.same .nullablePtr t)) fun nullable => ?_
  split
  · split
    · exact .pure
    · exact reasons _ _ _ _
  refine .bind (.quietly (asks.same .nakedStruct t)) fun naked => ?_
  split
  · split
    · exact .pure
    · exact reasons _ _ _ _
  · exact reasons _ _ _ _

/-- A record has the form of a naked struct in both units or in neither. -/
theorem nakedRecord_lockstep :
    i.Lockstep (i.nakedRecord ask id) (i.desugared.nakedRecord ask' id) := by
  refine .look (Setting.definedRecord_desugared id) fun defined? _ => ?_
  cases defined? with
  | none => exact .pure
  | some defined =>
    refine .lookAs (Setting.record_desugared defined) fun r _ => ?_
    rw [RecordDecl.bases_retype, RecordDecl.fields_retype, RecordDecl.methods_retype]
    cases r.bases with
    | cons base rest => exact .complaint (.refl _)
    | nil =>
      exact .both (.allM fun f _ => nakedField_lockstep c asks f)
        (.allM_same fun f _ => nakedMethod_lockstep r f)

private theorem nakedStruct_lockstep :
    i.Lockstep (i.nakedStruct ask t) (i.desugared.nakedStruct ask' t) := by
  refine .look (Setting.definedRecordOf_desugared c t) fun defined? _ => ?_
  cases defined? with
  | none => exact .pure
  | some id =>
    refine .lookAs (Setting.record_desugared id) fun r _ => ?_
    show i.Lockstep (if r.has .nakedStruct then _ else _) (if r.has .nakedStruct then _ else _)
    split
    · exact .bind (nakedRecord_lockstep c asks) fun _ => .pure
    · exact .pure

/-- What a nullable pointer points to is the same type, as synonyms are followed. -/
private theorem nullablePtr_lockstep :
    i.Lockstep (i.nullablePtr ask t) (i.desugared.nullablePtr ask' t) := by
  refine .look (Setting.canonical_desugared c t) fun t _ => ?_
  refine .look (Setting.isNullablePtr_desugared c t) fun isNullable _ => ?_
  split
  · refine .look (Setting.pointee_desugared c t) fun pointee? _ => ?_
    cases pointee? with
    | none => exact .pure
    | some pointee => exact .bind (asks.same .heapSafe pointee) fun _ => .pure
  · exact .pure

/-- What a smart pointer owns is the same type. -/
private theorem deepConstOwner_lockstep :
    i.Lockstep (i.deepConstOwner ask t) (i.desugared.deepConstOwner ask' t) := by
  refine .look (Setting.isOwningPtr_desugared c t) fun isOwner _ => ?_
  split
  · refine .look (Setting.templateArg_desugared c t 0) fun arg? _ => ?_
    cases arg? with
    | none => exact .pure
    | some arg => exact .bind (asks.same .deepConst arg) fun _ => .pure
  · exact .pure

omit c in
/-- Members are retyped, and asking about a type without its synonyms is asking about the type. -/
theorem deepConstMembers_lockstep {entered : Bool} (r : RecordDecl) :
    i.Lockstep (i.deepConstMembers ask entered r)
      (i.desugared.deepConstMembers ask' entered (r.retype i.setting.unit.types.desugar)) := by
  unfold deepConstMembers
  rw [RecordDecl.fields_retype, RecordDecl.methods_retype, RecordDecl.bases_retype]
  show i.Lockstep (if r.isUnion then _ else _) (if r.isUnion then _ else _)
  split
  · exact .complaint (.refl _)
  refine .bind (.allMembers .refl (fun _ _ => rfl) fun f _ =>
    .bind (asks.member .deepConst f.type) fun _ => .pure) fun fields => ?_
  split
  · exact .pure
  refine .bind (.allM_same fun f _ => deepConstMethod_lockstep f) fun methods => ?_
  split
  · exact .pure
  · exact .bind (.allMembers .refl (fun _ _ => rfl) fun b _ =>
      .bind (asks.member .deepConst b.type) fun _ => .pure) fun _ => .pure

private theorem safePointee_lockstep :
    i.Lockstep (i.safePointee ask t) (i.desugared.safePointee ask' t) := by
  refine .look (Setting.pointee_desugared c t) fun pointee? _ => ?_
  cases pointee? with
  | none => exact .pure
  | some pointee => exact .bind (asks.same .heapSafe pointee) fun _ => .pure

/-- The members of a record, one after the other. -/
private theorem safeMembers_lockstep {entered : Bool} :
    i.Lockstep (i.safeMembers ask entered id) (i.desugared.safeMembers ask' entered id) := by
  refine .lookAs (Setting.record_desugared id) fun r _ => ?_
  show i.Lockstep (if r.isUnion then _ else _) (if r.isUnion then _ else _)
  split
  · exact unionRecord_lockstep c
  · unfold Inspect.allFieldsAndBases
    rw [RecordDecl.fields_retype, RecordDecl.bases_retype]
    refine .both (.allMembers .refl (fun _ _ => rfl) fun f _ => ?_)
      (.allMembers .refl (fun _ _ => rfl) fun b _ => ?_)
    · exact .bind (asks.member .heapSafe f.type) fun _ => .pure
    · exact .bind (asks.member .heapSafe b.type) fun _ => .pure

/-- A record is trusted by name in both units or in neither. -/
private theorem safeDefined_lockstep :
    i.Lockstep (i.safeDefined ask id) (i.desugared.safeDefined ask' id) := by
  refine .look (Setting.recordName_desugared id) fun name _ => ?_
  show i.Lockstep (if i.setting.isSafeTypeName name then _ else _)
    (if i.setting.isSafeTypeName name then _ else _)
  split
  · exact .pure
  refine .lookAs (Setting.record_desugared id) fun r _ => ?_
  refine .look (Setting.isSystemRecord_desugared id) fun isSystem _ => ?_
  show i.Lockstep (if isSystem && !i.userCodeMode then _ else _)
    (if isSystem && !i.userCodeMode then _ else _)
  split
  · exact .bind (.remarkOnMember (.refl _)) fun _ => .pure
  · exact .inside fun entered => safeMembers_lockstep c asks

/-- A record is safe in both units or in neither. -/
theorem safeRecord_lockstep :
    i.Lockstep (i.safeRecord ask id) (i.desugared.safeRecord ask' id) := by
  refine .look (Setting.definedRecord_desugared id) fun defined? _ => ?_
  cases defined? with
  | none => exact .pure
  | some defined => exact .guarded (safeDefined_lockstep c asks)

omit c in
/-- The members without initializer are the same, retyped. -/
theorem deterministicDefined_lockstep :
    i.Lockstep (i.deterministicDefined ask id) (i.desugared.deterministicDefined ask' id) := by
  refine .look (Setting.recordName_desugared id) fun name _ => ?_
  show i.Lockstep (if i.setting.isSafeTypeName name then _ else _)
    (if i.setting.isSafeTypeName name then _ else _)
  split
  · exact .pure
  refine .lookAs (Setting.record_desugared id) fun r _ => ?_
  refine .look (Setting.isSystemRecord_desugared id) fun isSystem _ => .inside fun entered => ?_
  show i.Lockstep (if r.isUnion then _ else _) (if r.isUnion then _ else _)
  split
  · rw [RecordDecl.fields_retype, List.any_map]
    exact .pure
  · unfold Inspect.allFieldsAndBases
    rw [RecordDecl.fields_retype, RecordDecl.bases_retype]
    refine .both (.allMembers .refl (fun _ _ => rfl) fun f _ => ?_)
      (.allMembers .refl (fun _ _ => rfl) fun b _ => ?_)
    · show i.Lockstep (if f.hasInitializer then _ else _) (if f.hasInitializer then _ else _)
      split
      · exact .pure
      · exact .bind (asks.member .deterministic f.type) fun _ => .pure
    · exact .bind (asks.member .deterministic b.type) fun _ => .pure

omit c in
/-- A record is deterministic in both units or in neither. -/
theorem deterministicRecord_lockstep :
    i.Lockstep (i.deterministicRecord ask id) (i.desugared.deterministicRecord ask' id) := by
  refine .look (Setting.definedRecord_desugared id) fun defined? _ => ?_
  cases defined? with
  | none => exact .pure
  | some defined => exact .guarded (deterministicDefined_lockstep asks)

/-- A type is deterministic in both units or in neither. -/
private theorem deterministic_lockstep :
    i.Lockstep (i.deterministic ask t) (i.desugared.deterministic ask' t) := by
  refine .look (Setting.canonical_desugared c t) fun t _ => ?_
  refine .lookAs (Setting.shape_desugared c t) fun shape _ => ?_
  rw [TypeShape.isReference_retype, TypeShape.isPointer_retype, TypeShape.isScalar_retype]
  split
  · exact .pure
  split
  · exact .pure
  refine .look (isDeterministicKind_desugared c t) fun byKind _ => ?_
  split
  · exact .pure
  cases shape with
  | record id => exact deterministicRecord_lockstep asks
  | _ => exact .pure

end Aggregates

-- ============================================================ containers and template arguments

section Containers

variable (founded : i.setting.unit.TypesFounded) (asks : i.AskAlike ask ask')
include c founded asks

private theorem argIsSafe_lockstep :
    i.Lockstep (i.argIsSafe ask t n arg) (i.desugared.argIsSafe ask' t n arg) :=
  .orComplaint (asks.same .heapSafe arg) (remarkOnArg_lockstep c founded)

private theorem argIsDeepConst_lockstep :
    i.Lockstep (i.argIsDeepConst ask t n arg) (i.desugared.argIsDeepConst ask' t n arg) :=
  .orComplaint (asks.same .deepConst arg) (remarkOnArg_lockstep c founded)

/-- An argument of a container is asked about in both. -/
private theorem safeArg_lockstep :
    i.Lockstep (i.safeArg ask t n) (i.desugared.safeArg ask' t n) := by
  refine .bind (requiredArg_lockstep c) fun arg? => ?_
  cases arg? with
  | none => exact .pure
  | some arg => exact argIsSafe_lockstep c founded asks

private theorem safeDeepConstArg_lockstep :
    i.Lockstep (i.safeDeepConstArg ask t n) (i.desugared.safeDeepConstArg ask' t n) := by
  refine .bind (requiredArg_lockstep c) fun arg? => ?_
  cases arg? with
  | none => exact .pure
  | some arg =>
    exact .both (argIsSafe_lockstep c founded asks) (argIsDeepConst_lockstep c founded asks)

private theorem pureArg_lockstep :
    i.Lockstep (i.pureArg ask t n) (i.desugared.pureArg ask' t n) := by
  refine .bind (requiredArg_lockstep c) fun arg? => ?_
  cases arg? with
  | none => exact .pure
  | some arg =>
    exact .both (argIsSafe_lockstep c founded asks)
      (.both (argIsDeepConst_lockstep c founded asks) (argIsPure_lockstep c founded))

/-- A vector in one unit is one in the other. -/
private theorem vector_lockstep : i.Lockstep (i.vector ask t) (i.desugared.vector ask' t) := by
  refine .look (Setting.typeName_desugared c t) fun name _ => ?_
  show i.Lockstep (if i.setting.names.vector.contains name then _ else _)
    (if i.setting.names.vector.contains name then _ else _)
  split
  · exact .bind (safeArg_lockstep c founded asks) fun _ => .pure
  · exact .pure

private theorem hashmapArgs_lockstep :
    i.Lockstep (i.hashmapArgs ask t) (i.desugared.hashmapArgs ask' t) :=
  .both (safeDeepConstArg_lockstep c founded asks) (.both (safeArg_lockstep c founded asks)
    (.both (pureArg_lockstep c founded asks) (pureArg_lockstep c founded asks)))

/-- A hash map in one unit is one in the other. -/
private theorem hashmap_lockstep : i.Lockstep (i.hashmap ask t) (i.desugared.hashmap ask' t) := by
  show i.Lockstep (if !i.setting.names.hashmapRules then _ else _)
    (if !i.setting.names.hashmapRules then _ else _)
  split
  · exact .pure
  refine .look (Setting.typeName_desugared c t) fun name _ => ?_
  show i.Lockstep (if i.setting.names.hashmap.contains name then _ else _)
    (if i.setting.names.hashmap.contains name then _ else _)
  split
  · exact .bind (hashmapArgs_lockstep c founded asks) fun _ => .pure
  · exact .pure

/-- The arguments of a record are retyped like its members. -/
private theorem argOfRecord_lockstep {location : Location} (arg : TemplateArg) :
    i.Lockstep (i.argOfRecord ask location n arg)
      (i.desugared.argOfRecord ask' location n (arg.retype i.setting.unit.types.desugar)) := by
  cases arg with
  | integral value => exact .pure
  | other text => exact .pure
  | type t =>
    refine .look (Setting.canonical_desugar c t) fun t _ => ?_
    refine .bind (asks.same .heapSafe t) fun safe => ?_
    split
    · exact spell_lockstep c founded fun _ _ spelling spelling' =>
        .complaint (.quote spelling spelling')
    refine .bind (asks.same .deepConst t) fun const => ?_
    split
    · exact spell_lockstep c founded fun _ _ spelling spelling' =>
        .complaint (.quote spelling spelling')
    · exact .pure

/-- The arguments of a record are there in both units or in neither. -/
private theorem argsDeepConst_lockstep :
    i.Lockstep (i.argsDeepConst ask id) (i.desugared.argsDeepConst ask' id) := by
  refine .lookAs (Setting.record_desugared id) fun r _ => ?_
  show i.Lockstep (if r.templateArgs.isEmpty then _ else r.templateArgs.zipIdx.allM _)
    (if (r.templateArgs.map _).isEmpty then _ else (r.templateArgs.map _).zipIdx.allM _)
  rw [List.isEmpty_map, List.zipIdx_map]
  split
  · exact .pure
  · exact .allM fun arg _ => argOfRecord_lockstep c founded asks arg.1

private theorem deepConstDefined_lockstep :
    i.Lockstep (i.deepConstDefined ask id defined)
      (i.desugared.deepConstDefined ask' id defined) := by
  refine .lookAs (Setting.record_desugared defined) fun r _ => ?_
  refine .look (Setting.isSystemRecord_desugared defined) fun isSystem _ => ?_
  refine .inside fun entered => .get_bind fun s s' same => ?_
  show i.Lockstep
    (if s.inSystem then
      if r.has .deepConst then _ else if r.has .deepConstWhenParams then _ else _
    else if r.has .deepConst then _ else _)
    (if s'.inSystem then
      if r.has .deepConst then _ else if r.has .deepConstWhenParams then _ else _
    else if r.has .deepConst then _ else _)
  rw [same]
  split
  · split
    · exact .pure
    split
    · exact .bind (argsDeepConst_lockstep c founded asks) fun _ => .pure
    · exact .pure
  · split
    · exact deepConstMembers_lockstep asks r
    · exact .pure

/-- A record is deep const in both units or in neither. -/
theorem deepConstRecord_lockstep :
    i.Lockstep (i.deepConstRecord ask id) (i.desugared.deepConstRecord ask' id) := by
  refine .look (Setting.definedRecord_desugared id) fun defined? _ => ?_
  cases defined? with
  | none => exact .pure
  | some defined => exact .guarded (deepConstDefined_lockstep c founded asks)

/-- A type is deep const in both units or in neither. -/
private theorem deepConst_lockstep :
    i.Lockstep (i.deepConst ask t) (i.desugared.deepConst ask' t) := by
  refine .look (Setting.canonical_desugared c t) fun t _ => ?_
  refine .lookAs (Setting.shape_desugared c t) fun shape _ => ?_
  rw [TypeShape.isReference_retype, TypeShape.isPointer_retype, TypeShape.isScalar_retype]
  split
  · exact .pure
  split
  · exact .pure
  refine .bind (deepConstOwner_lockstep c asks) fun isOwner => ?_
  split
  · exact .pure
  refine .look (Setting.isSafePtr_desugared c t) fun isSafePtr _ => ?_
  split
  · exact .pure
  refine .look (Setting.isNullablePtr_desugared c t) fun isNullable _ => ?_
  split
  · exact .pure
  cases shape with
  | record id => exact deepConstRecord_lockstep c founded asks
  | _ => exact .pure

private theorem safeCompound_lockstep (shape : TypeShape) :
    i.Lockstep (i.safeCompound ask t shape)
      (i.desugared.safeCompound ask' t (shape.retype i.setting.unit.types.desugar)) := by
  refine .bind (vector_lockstep c founded asks) fun vector => ?_
  split
  · exact .pure
  refine .bind (hashmap_lockstep c founded asks) fun hashmap => ?_
  split
  · exact .pure
  refine .look (Setting.isSafePtr_desugared c t) fun isSafePtr _ => ?_
  split
  · exact safePointee_lockstep c asks
  cases shape with
  | record id => exact safeRecord_lockstep c asks
  | _ => exact .pure

/-- A type is safe in both units or in neither. -/
private theorem safe_lockstep : i.Lockstep (i.safe ask t) (i.desugared.safe ask' t) := by
  refine .look (Setting.canonical_desugared c t) fun t _ => ?_
  refine .look (stackOnly_desugared c t) fun onStack _ => ?_
  split
  · exact .pure
  refine .lookAs (Setting.shape_desugared c t) fun shape _ => ?_
  rw [TypeShape.isScalar_retype]
  split
  · exact .pure
  refine .look (Setting.isAwaitable_desugared c t) fun awaitable _ => ?_
  split
  · exact .pure
  · exact safeCompound_lockstep c founded asks shape

/-- The step lemma: if questions about parts keep up with each other, so do those about the
whole. -/
private theorem assess_lockstep (a : Aspect) :
    i.Lockstep (i.assess ask a t) (i.desugared.assess ask' a t) := by
  cases a with
  | heapSafe => exact .bind (safe_lockstep c founded asks) fun _ => .pure
  | deterministic => exact .bind (deterministic_lockstep c asks) fun _ => .pure
  | stackOnly => exact .look (stackOnly_desugared c t) fun _ _ => .pure
  | nullablePtr => exact nullablePtr_lockstep c asks
  | nakedStruct => exact nakedStruct_lockstep c asks
  | deepConst => exact deepConst_lockstep c founded asks

end Containers

section Judge

variable (founded : i.setting.unit.TypesFounded)
include c

/-- A canonical form is judged like its type. -/
theorem judgeWithin_desugar (depth : Nat) (a : Aspect) (t : QualifiedType) :
    i.desugared.judgeWithin depth a (i.setting.unit.types.desugar t) =
      i.desugared.judgeWithin depth a t := by
  cases canonical : i.setting.canonical t with
  | error fault =>
    have same : i.setting.unit.types.desugar t = t := by
      unfold TypeTable.desugar
      rw [show i.setting.unit.types.canonical t = _ from canonical]
    rw [same]
  | ok r =>
    refine judgeWithin_congr ⟨r, r, ?_, ?_, rfl⟩ depth a
    · rw [setting_desugared, Setting.canonical_desugar c, canonical]
    · rw [setting_desugared, Setting.canonical_desugared c, canonical]

include founded

/-- Classifications run side by side, however deep. -/
theorem askAlike_judgeWithin (depth : Nat) :
    i.AskAlike (i.judgeWithin depth) (i.desugared.judgeWithin depth) := by
  induction depth with
  | zero => exact ⟨fun _ _ => .error, judgeWithin_desugar c 0⟩
  | succ depth ih =>
    exact ⟨fun a _ => assess_lockstep c founded ih a, judgeWithin_desugar c (depth + 1)⟩

/-- All questions keep up with each other, by induction on the depth, which both inspectors have in
common. -/
theorem askAlike_judge : i.AskAlike i.judge i.desugared.judge := by
  have sameDepth : i.desugared.depth = i.depth := by
    unfold depth
    rw [show i.desugared.setting.unit.types.size = _ from TranslationUnit.size_retype,
      show i.desugared.setting.unit.records.size = _ from Array.size_map]
  unfold judge
  rw [sameDepth]
  exact askAlike_judgeWithin c founded i.depth

end Judge

end Inspector

end SafeDialect
