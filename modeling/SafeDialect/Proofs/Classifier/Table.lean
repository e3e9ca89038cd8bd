/-
The decision tables, and the chains of questions that end in a rejection.

A classification answers a question about a type or a record outright, or by further questions, all
of which have to be answered well. The tables below say which, one question at a time: they never
look at the answers, and know of no records in progress. So a question leads to others like a vertex
to its neighbours, and it should be answered badly if and only if it leads, step by step, to one
that is rejected.

A walk that keeps records in progress follows fewer chains than there are: those that do not come to
a record in progress. `Fails P q` is that there is such a chain.
-/
import SafeDialect.Classifier.Judge
import SafeDialect.Proofs.Program.Lookup

namespace SafeDialect

/-- A question about a type or a record. The last part tells whether it comes up inside library
code. -/
inductive Question where
  | type (aspect : Aspect) (t : QualifiedType) (inSystem : Bool)
  | record (aspect : Aspect) (id : RecordId) (inSystem : Bool)
  deriving DecidableEq

/-- How a question is decided: it is rejected, or rests on other questions. -/
inductive Ruling where
  | rejected
  | rests (on : List Question)
  deriving DecidableEq

/-- Accepted outright: rests on nothing. -/
def Ruling.accepted : Ruling := .rests []

/-- The types of the fields and bases. -/
def RecordDecl.memberTypes (r : RecordDecl) : List QualifiedType :=
  r.fields.map (·.type) ++ r.bases.map (·.type)

/-- The types of the fields that have no initializer, and of the bases. -/
def RecordDecl.uninitializedTypes (r : RecordDecl) : List QualifiedType :=
  (r.fields.filter (!·.hasInitializer)).map (·.type) ++ r.bases.map (·.type)

/-- The types among the template arguments. -/
def RecordDecl.typeArgs (r : RecordDecl) : List QualifiedType :=
  r.templateArgs.filterMap TemplateArg.type?

namespace Inspector

-- ============================================================ tables for types

/-- Whether a type can be called, and only without side effect. -/
def callsPurely (i : Inspector) (t : QualifiedType) : Result Bool := do
  match ← i.setting.definedRecordOf t with
  | none => return false
  | some id =>
    match ← i.setting.callOperators id with
    | [] => return false
    | operators => operators.allM i.setting.isPure

/-- A vector rests on its element. -/
def vectorRuling (i : Inspector) (sys : Bool) (t : QualifiedType) : Result Ruling := do
  match ← i.setting.templateArg t 0 with
  | some element => return .rests [.type .heapSafe element sys]
  | none => return .rejected

/-- A hash map rests on its key, value, hasher and equality. The last two have to be pure. -/
def hashmapRuling (i : Inspector) (sys : Bool) (t : QualifiedType) : Result Ruling := do
  match ← i.setting.templateArg t 0, ← i.setting.templateArg t 1, ← i.setting.templateArg t 2,
    ← i.setting.templateArg t 3 with
  | some key, some value, some hasher, some equality =>
    let pureHasher ← i.callsPurely hasher
    let pureEquality ← i.callsPurely equality
    if pureHasher && pureEquality then
      return .rests [.type .heapSafe key sys, .type .deepConst key sys, .type .heapSafe value sys,
        .type .heapSafe hasher sys, .type .deepConst hasher sys,
        .type .heapSafe equality sys, .type .deepConst equality sys]
    else return .rejected
  | _, _, _, _ => return .rejected

/-- A smart pointer rests on its pointee. -/
def pointerRuling (i : Inspector) (sys : Bool) (t : QualifiedType) : Result Ruling := do
  match ← i.setting.pointee t with
  | some pointee => return .rests [.type .heapSafe pointee sys]
  | none => return .rejected

/-- The table of safety, for canonical types that are neither scalar nor stack only. -/
def compoundRuling (i : Inspector) (sys : Bool) (t : QualifiedType) (shape : TypeShape)
    (name : String) : Result Ruling :=
  if i.setting.names.vector.contains name then i.vectorRuling sys t
  else if i.setting.names.hashmapRules && i.setting.names.hashmap.contains name then
    i.hashmapRuling sys t
  else if i.setting.names.isSafePtr name then i.pointerRuling sys t
  else
    match shape with
    | .record id => return .rests [.record .heapSafe id sys]
    | .templateParam .. => return .accepted
    | _ => return .rejected

/-- The table of safety, for canonical types. -/
def safeRuling (i : Inspector) (sys : Bool) (t : QualifiedType) : Result Ruling := do
  let shape ← i.setting.shape t
  let name ← i.setting.typeName t
  if ← i.stackOnly t then return .rejected
  else if shape.isScalar then return .accepted
  else if ← i.setting.isAwaitable t then return .rejected
  else i.compoundRuling sys t shape name

/-- An owning pointer rests on its pointee, which has to be constant. -/
def ownerRuling (i : Inspector) (sys : Bool) (t : QualifiedType) : Result Ruling := do
  match ← i.setting.templateArg t 0 with
  | some owned =>
    if owned.isConst then return .rests [.type .deepConst owned sys] else return .rejected
  | none => return .rejected

/-- The table of deep constness, for canonical types. -/
def deepConstRuling (i : Inspector) (sys : Bool) (t : QualifiedType) : Result Ruling := do
  let shape ← i.setting.shape t
  let name ← i.setting.typeName t
  if shape.isReference || shape.isPointer then return .rejected
  else if shape.isScalar then return .accepted
  else if i.setting.names.isOwningPtr name then i.ownerRuling sys t
  else if i.setting.names.isSafePtr name || i.setting.names.isNullablePtr name then return .rejected
  else
    match shape with
    | .record id => return .rests [.record .deepConst id sys]
    | .templateParam .. => return .accepted
    | _ => return .rejected

/-- The table of determinism, for canonical types. -/
def deterministicRuling (i : Inspector) (sys : Bool) (t : QualifiedType) : Result Ruling := do
  let shape ← i.setting.shape t
  if shape.isReference then return .accepted
  else if shape.isPointer || shape.isScalar then return .rejected
  else if ← i.isDeterministicKind t then return .accepted
  else
    match shape with
    | .record id => return .rests [.record .deterministic id sys]
    | .templateParam .. => return .accepted
    | _ => return .rejected

-- ============================================================ tables for records

/-- Whether every field may be in a union. -/
def holdsPrimitives (i : Inspector) (r : RecordDecl) : Result Bool :=
  r.fields.allM fun f => return (unionComplaint? (← i.setting.shape f.type)).isNone

/-- The table of safety, for defined records. -/
def safeRecordRuling (i : Inspector) (sys : Bool) (defined : RecordId) : Result Ruling := do
  let r ← i.setting.unit.record defined
  let name ← i.setting.unit.recordName defined
  let isSystem ← i.setting.isSystemRecord defined
  if i.setting.isSafeTypeName name then return .accepted
  else if isSystem && !i.userCodeMode then return .rejected
  else if r.isUnion then return if ← i.holdsPrimitives r then .accepted else .rejected
  else return .rests (r.memberTypes.map (.type .heapSafe · (sys || isSystem)))

/-- Whether a method may be in a deep const record. -/
def suitsDeepConst (i : Inspector) (id : FunctionId) : Result Bool :=
  return (deepConstComplaint? (← i.setting.unit.function id)).isNone

/-- The table of deep constness, for a record `id` whose definition is that of `defined`. -/
def deepConstRecordRuling (i : Inspector) (sys : Bool) (id defined : RecordId) :
    Result Ruling := do
  let r ← i.setting.unit.record defined
  let used ← i.setting.unit.record id
  if sys || (← i.setting.isSystemRecord defined) then
    if r.has .deepConst then return .accepted
    else if r.has .deepConstWhenParams && !used.templateArgs.isEmpty then
      return .rests (used.typeArgs.flatMap fun t =>
        [.type .heapSafe t true, .type .deepConst t true])
    else return .rejected
  else if r.has .deepConst && !r.isUnion && (← r.methods.allM i.suitsDeepConst) then
    return .rests (r.memberTypes.map (.type .deepConst · false))
  else return .rejected

/-- The table of determinism, for defined records. -/
def deterministicRecordRuling (i : Inspector) (sys : Bool) (defined : RecordId) :
    Result Ruling := do
  let r ← i.setting.unit.record defined
  let name ← i.setting.unit.recordName defined
  let isSystem ← i.setting.isSystemRecord defined
  if i.setting.isSafeTypeName name then return .accepted
  else if r.isUnion then
    return if r.fields.any (·.hasInitializer) then .accepted else .rejected
  else return .rests (r.uninitializedTypes.map (.type .deterministic · (sys || isSystem)))

-- ============================================================ the ruling on a question

/-- The table of an aspect, for canonical types. Aspects without a table are not asked about in
turn. -/
def typeRuling (i : Inspector) : Aspect → (sys : Bool) → QualifiedType → Result Ruling
  | .heapSafe => i.safeRuling
  | .deepConst => i.deepConstRuling
  | .deterministic => i.deterministicRuling
  | _ => fun _ _ => return .accepted

/-- The table of an aspect, for a record `id` whose definition is that of `defined`. -/
def recordRuling (i : Inspector) :
    Aspect → (sys : Bool) → (id defined : RecordId) → Result Ruling
  | .heapSafe => fun sys _ => i.safeRecordRuling sys
  | .deepConst => i.deepConstRecordRuling
  | .deterministic => fun sys _ => i.deterministicRecordRuling sys
  | _ => fun _ _ _ => return .accepted

/-- How a question is decided. -/
def ruling (i : Inspector) : Question → Result Ruling
  | .type aspect t sys => do i.typeRuling aspect sys (← i.setting.canonical t)
  | .record aspect id sys => do
    match ← i.setting.definedRecord id with
    | some defined => i.recordRuling aspect sys id defined
    | none => return .rejected

/-- A question that is rejected outright. -/
def Rejects (i : Inspector) (q : Question) : Prop := i.ruling q = .ok .rejected

/-- A question rests on another one. -/
def Leads (i : Inspector) (q q' : Question) : Prop := ∃ on, i.ruling q = .ok (.rests on) ∧ q' ∈ on

/-- What is in progress while the question is answered: the definition of its record. -/
def key? (i : Inspector) : Question → Option (Aspect × RecordId)
  | .type .. => none
  | .record aspect id _ =>
    match i.setting.definedRecord id with
    | .ok (some defined) => some (aspect, defined)
    | _ => none

-- ============================================================ failing chains

/-- A chain from a question to a rejection that comes to no record in progress. -/
inductive Fails (i : Inspector) : List (Aspect × RecordId) → Question → Prop where
  | rejects {P : List (Aspect × RecordId)} {q : Question} :
      i.Rejects q → (∀ k ∈ i.key? q, k ∉ P) → Fails i P q
  | step {P : List (Aspect × RecordId)} {q q' : Question} :
      i.Leads q q' → (∀ k ∈ i.key? q, k ∉ P) → Fails i ((i.key? q).toList ++ P) q' → Fails i P q

variable {i : Inspector} {P P' : List (Aspect × RecordId)} {a : Aspect} {t : QualifiedType}
  {id defined : RecordId} {sys : Bool} {on : List Question} {q : Question}

/-- The fewer records are in progress, the more chains there are. -/
theorem Fails.antitone (h : i.Fails P q) (sub : P' ⊆ P) : i.Fails P' q := by
  induction h generalizing P' with
  | rejects rejected free => exact .rejects rejected fun k key mem => free k key (sub mem)
  | step leads free _ ih =>
    refine .step leads (fun k key mem => free k key (sub mem)) (ih ?_)
    exact List.append_subset.mpr ⟨List.subset_append_left _ _,
      fun _ mem => List.subset_append_right _ _ (sub mem)⟩

/-- A ruling that rejects, or rests on a question that fails. -/
def FailsBy (i : Inspector) (P : List (Aspect × RecordId)) (x : Result Ruling) : Prop :=
  x = .ok .rejected ∨ ∃ on, x = .ok (.rests on) ∧ ∃ q ∈ on, i.Fails P q

@[simp]
theorem failsBy_rejected : i.FailsBy P (pure .rejected) := .inl rfl

@[simp]
theorem failsBy_rests : i.FailsBy P (pure (.rests on)) ↔ ∃ q ∈ on, i.Fails P q := by
  constructor
  · rintro (rejected | ⟨on', same, fails⟩)
    · cases rejected
    · cases same
      exact fails
  · exact fun fails => .inr ⟨on, rfl, fails⟩

@[simp]
theorem not_failsBy_accepted : ¬ i.FailsBy P (pure .accepted) := by
  unfold Ruling.accepted
  simp

/-- What is accepted outright is answered well. -/
theorem accepted_iff : true = false ↔ i.FailsBy P (pure .accepted) :=
  iff_of_false nofun not_failsBy_accepted

/-- What is rejected outright is answered badly. -/
theorem rejected_iff : false = false ↔ i.FailsBy P (pure .rejected) :=
  iff_of_true rfl failsBy_rejected

/-- Asking for safety and deep constness of every type in a list. -/
theorem exists_fails_both {l : List QualifiedType} :
    (∃ q ∈ l.flatMap fun t => [Question.type .heapSafe t sys, .type .deepConst t sys],
      i.Fails P q) ↔
    ∃ t ∈ l, i.Fails P (.type .heapSafe t sys) ∨ i.Fails P (.type .deepConst t sys) := by
  constructor
  · rintro ⟨q, mem, fails⟩
    obtain ⟨t, memT, either⟩ := List.mem_flatMap.mp mem
    simp only [List.mem_cons, List.not_mem_nil, or_false] at either
    rcases either with rfl | rfl
    · exact ⟨t, memT, .inl fails⟩
    · exact ⟨t, memT, .inr fails⟩
  · rintro ⟨t, memT, fails | fails⟩
    · exact ⟨.type .heapSafe t sys, List.mem_flatMap.mpr ⟨t, memT, by simp⟩, fails⟩
    · exact ⟨.type .deepConst t sys, List.mem_flatMap.mpr ⟨t, memT, by simp⟩, fails⟩

/-- Asking about every member of a record. -/
theorem exists_fails_member {r : RecordDecl} :
    (∃ q ∈ r.memberTypes.map (Question.type a · sys), i.Fails P q) ↔
    (∃ f ∈ r.fields, i.Fails P (.type a f.type sys))
      ∨ ∃ f ∈ r.bases, i.Fails P (.type a f.type sys) := by
  simp [RecordDecl.memberTypes, or_and_right, exists_or]

theorem exists_fails_uninitialized {r : RecordDecl} :
    (∃ q ∈ r.uninitializedTypes.map (Question.type a · sys), i.Fails P q) ↔
    (∃ f ∈ r.fields, f.hasInitializer = false ∧ i.Fails P (.type a f.type sys))
      ∨ ∃ f ∈ r.bases, i.Fails P (.type a f.type sys) := by
  simp only [RecordDecl.uninitializedTypes, List.mem_map, List.mem_append, List.mem_filter]
  constructor
  · rintro ⟨_, ⟨_, ⟨f, ⟨mem, bare⟩, rfl⟩ | ⟨f, mem, rfl⟩, rfl⟩, fails⟩
    · exact .inl ⟨f, mem, by simpa using bare, fails⟩
    · exact .inr ⟨f, mem, fails⟩
  · rintro (⟨f, mem, bare, fails⟩ | ⟨f, mem, fails⟩)
    · exact ⟨_, ⟨f.type, .inl ⟨f, ⟨mem, by simp [bare]⟩, rfl⟩, rfl⟩, fails⟩
    · exact ⟨_, ⟨f.type, .inr ⟨f, mem, rfl⟩, rfl⟩, fails⟩

/-- While a type is asked about nothing new is in progress. -/
theorem fails_type_iff : i.Fails P (.type a t sys) ↔ i.FailsBy P (i.ruling (.type a t sys)) := by
  constructor
  · intro h
    cases h with
    | rejects rejected _ => exact .inl rejected
    | step leads _ rest =>
      obtain ⟨on, ruled, mem⟩ := leads
      exact .inr ⟨on, ruled, _, mem, rest⟩
  · rintro (rejected | ⟨on, ruled, q, mem, rest⟩)
    · exact .rejects rejected fun _ key => nomatch key
    · exact .step ⟨on, ruled, mem⟩ (fun _ key => nomatch key) rest

theorem ruling_type {r : QualifiedType} (canonical : i.setting.canonical t = .ok r) :
    i.ruling (.type a t sys) = i.typeRuling a sys r := by
  simp only [ruling, canonical, ok_bind]

/-- A type fails as its canonical type does. -/
theorem fails_canonical {r : QualifiedType} (canonical : i.setting.canonical t = .ok r) :
    i.Fails P (.type a r sys) ↔ i.Fails P (.type a t sys) := by
  obtain ⟨shape, look, plain⟩ := TranslationUnit.plain_of_resolve canonical
  have again : i.setting.canonical r = .ok r := TranslationUnit.resolve_of_plain look plain
  rw [fails_type_iff, fails_type_iff, ruling_type canonical, ruling_type again]

theorem fails_record_of_undefined (unknown : i.setting.definedRecord id = .ok none) :
    i.Fails P (.record a id sys) := by
  refine .rejects ?_ fun k key => ?_
  · simp only [Rejects, ruling, unknown, ok_bind]
    rfl
  · simp only [key?, unknown] at key
    cases key

/-- A record fails if it is not in progress, and fails while it is. -/
theorem fails_record_iff (known : i.setting.definedRecord id = .ok (some defined)) :
    i.Fails P (.record a id sys) ↔
      (a, defined) ∉ P ∧ i.FailsBy ((a, defined) :: P) (i.recordRuling a sys id defined) := by
  have key : i.key? (.record a id sys) = some (a, defined) := by simp only [key?, known]
  have ruled : i.ruling (.record a id sys) = i.recordRuling a sys id defined := by
    simp only [ruling, known, ok_bind]
  constructor
  · intro h
    cases h with
    | rejects rejected free => exact ⟨free _ key, .inl (ruled ▸ rejected)⟩
    | step leads free rest =>
      obtain ⟨on, rests, mem⟩ := leads
      rw [key] at rest
      exact ⟨free _ key, .inr ⟨on, ruled ▸ rests, _, mem, rest⟩⟩
  · rintro ⟨fresh, fails⟩
    have free : ∀ k ∈ i.key? (.record a id sys), k ∉ P := by
      intro k same
      rw [key] at same
      cases same
      exact fresh
    rcases fails with rejected | ⟨on, rests, q, mem, rest⟩
    · exact .rejects (ruled.trans rejected) free
    · refine .step ⟨on, ruled.trans rests, mem⟩ free ?_
      rw [key]
      exact rest

end Inspector

end SafeDialect
