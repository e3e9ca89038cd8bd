/-
A type is not deterministic if and only if a chain of members without initializer leads from it to a
type that is outright not so.

The chains are those of the types themselves: from a record to what its definition leaves open, with
no records in progress, no library flag and no bound on their length. Neither the flag nor the mode
changes what a definition leaves open, so a chain that comes to a definition twice may be cut short
wherever it runs. And questions about determinism go from a record to its members only, so they nest
no deeper than there are records, also where types contain themselves.
-/
import SafeDialect.Proofs.Classifier.Alike
import SafeDialect.Proofs.Classifier.SafeChains

namespace SafeDialect

open Relation

-- ============================================================ what is left open

/-- Types that hold no value of their own before they are initialized, and are no records. -/
def TypeShape.isBare : TypeShape → Bool
  | builtin _ | enum _ | pointer _ | array .. | function .. | dependent _ => true
  | lvalueReference _ | rvalueReference _ | record _ | templateParam .. | synonym .. => false

namespace Setting

/-- A record type that is neither awaitable nor a lambda, and no smart or nullable pointer. -/
structure IsOrdinary (s : Setting) (t : QualifiedType) (id : RecordId) : Prop where
  record : s.shape t = .ok (.record id)
  notAwaitable : s.isAwaitable t = .ok false
  notLambda : s.isLambda t = .ok false
  notSafePtr : s.isSafePtr t = .ok false
  notNullablePtr : s.isNullablePtr t = .ok false

/-- A record whose definition is found, and is not safe by its name. -/
def DecidedBy (s : Setting) (id : RecordId) (r : RecordDecl) : Prop :=
  ∃ defined name, s.definedRecord id = .ok (some defined) ∧ s.unit.record defined = .ok r
    ∧ s.unit.recordName defined = .ok name ∧ s.isSafeTypeName name = false

/-- A record leaves a part open: the type of a field without initializer, or of a base. -/
def LeavesOpen (s : Setting) (t part : QualifiedType) : Prop :=
  ∃ id r, s.IsOrdinary t id ∧ s.DecidedBy id r ∧ r.isUnion = false ∧ part ∈ r.uninitializedTypes

/-- A type that is outright not deterministic. -/
inductive IsIndeterminate (s : Setting) (t : QualifiedType) : Prop
  | bare {shape : TypeShape} (look : s.shape t = .ok shape) (bare : shape.isBare)
  | undefined {id : RecordId} (ordinary : s.IsOrdinary t id)
    (missing : s.definedRecord id = .ok none)
  | union {id : RecordId} {r : RecordDecl} (ordinary : s.IsOrdinary t id)
    (decided : s.DecidedBy id r) (isUnion : r.isUnion = true)
    (bare : ∀ f ∈ r.fields, f.hasInitializer = false)

end Setting

-- ============================================================ the rulings, by what is left open

/-- The name of what is no record, which is empty, stands for no smart and no nullable pointer. -/
def Vocabulary.NamesRecords (v : Vocabulary) : Prop :=
  v.isSafePtr "" = false ∧ v.isNullablePtr "" = false

/-- In no naming scheme is the name of a smart or nullable pointer empty. -/
theorem Vocabulary.namesRecords_ofScheme (scheme : NamingScheme) :
    (Vocabulary.ofScheme scheme).NamesRecords := by
  cases scheme <;> exact ⟨by decide, by decide⟩

namespace Inspector

variable {i : Inspector} {t : QualifiedType} {id : RecordId} {sys : Bool} {x : Ruling}

private theorem isDeterministicKind_eq_false_iff : i.isDeterministicKind t = .ok false ↔
    i.setting.isAwaitable t = .ok false ∧ i.setting.isLambda t = .ok false
      ∧ i.setting.isSafePtr t = .ok false ∧ i.setting.isNullablePtr t = .ok false := by
  unfold isDeterministicKind
  constructor
  · intro none
    obtain ⟨awaitable, known, none⟩ := bind_eq_ok.mp none
    cases awaitable with
    | true => cases none
    | false =>
      obtain ⟨lambda, known', none⟩ := bind_eq_ok.mp none
      cases lambda with
      | true => cases none
      | false =>
        obtain ⟨safePtr, known'', none⟩ := bind_eq_ok.mp none
        cases safePtr with
        | true => cases none
        | false => exact ⟨known, known', known'', none⟩
  · rintro ⟨notAwaitable, notLambda, notSafePtr, notNullablePtr⟩
    rw [notAwaitable, notLambda, notSafePtr, notNullablePtr]
    rfl

/-- Only records are deterministic by their kind. -/
theorem isDeterministicKind_of_shape (names : i.setting.names.NamesRecords) {shape : TypeShape}
    (look : i.setting.shape t = .ok shape) (noRecord : shape.isRecord = false) :
    i.isDeterministicKind t = .ok false := by
  have record := Setting.recordOf_of_shape look noRecord
  have name := Setting.typeName_of_shape look noRecord
  rw [isDeterministicKind_eq_false_iff, Setting.isSafePtr_eq name, Setting.isNullablePtr_eq name,
    names.1, names.2, Setting.isAwaitable, Setting.isLambda, record]
  exact ⟨rfl, rfl, rfl, rfl⟩

/-- The table of determinism reads of a type only the layer of its canonical type. -/
theorem ruling_deterministic_eq {shape : TypeShape} (look : i.setting.shape t = .ok shape) :
    i.ruling (.type .deterministic t sys) = i.deterministicRuling sys t := by
  obtain ⟨r, canonical, -⟩ := bind_eq_ok.mp look
  have same : i.setting.shape t = i.setting.shape r :=
    (Setting.alike_canonical canonical).shape
  rw [ruling_type canonical]
  show i.deterministicRuling sys r = i.deterministicRuling sys t
  unfold deterministicRuling
  rw [same, isDeterministicKind_congr same]

/-- What the table can say of a type. -/
theorem ruling_deterministic_type_cases (ruled : i.ruling (.type .deterministic t sys) = .ok x) :
    x = .accepted ∨ (x = .rejected ∧ ∃ shape, i.setting.shape t = .ok shape ∧ shape.isBare)
      ∨ ∃ id, i.setting.IsOrdinary t id ∧ x = .rests [.record .deterministic id sys] := by
  obtain ⟨r, canonical, -⟩ := bind_eq_ok.mp ruled
  obtain ⟨shape, here, plain⟩ := TranslationUnit.plain_of_resolve canonical
  have look : i.setting.shape t = .ok shape := by
    rw [Setting.shape_eq_of_canonical canonical, here]
  rw [ruling_deterministic_eq look, deterministicRuling, look, ok_bind] at ruled
  cases shape with
  | lvalueReference | rvalueReference =>
    cases ruled
    exact .inl rfl
  | pointer | builtin | enum =>
    cases ruled
    exact .inr (.inl ⟨rfl, _, look, rfl⟩)
  | synonym => cases plain
  | record id =>
    obtain ⟨byKind, known, ruled⟩ := bind_eq_ok.mp ruled
    cases byKind with
    | true =>
      cases ruled
      exact .inl rfl
    | false =>
      cases ruled
      obtain ⟨notAwaitable, notLambda, notSafePtr, notNullablePtr⟩ :=
        isDeterministicKind_eq_false_iff.mp known
      exact .inr (.inr ⟨id, ⟨look, notAwaitable, notLambda, notSafePtr, notNullablePtr⟩, rfl⟩)
  | templateParam =>
    obtain ⟨byKind, known, ruled⟩ := bind_eq_ok.mp ruled
    cases byKind <;> cases ruled <;> exact .inl rfl
  | array | function | dependent =>
    obtain ⟨byKind, known, ruled⟩ := bind_eq_ok.mp ruled
    cases byKind with
    | true =>
      cases ruled
      exact .inl rfl
    | false =>
      cases ruled
      exact .inr (.inl ⟨rfl, _, look, rfl⟩)

/-- A bare layer is no record, and has no name that would save it. -/
private theorem rejects_bare (names : i.setting.names.NamesRecords) {shape : TypeShape}
    (look : i.setting.shape t = .ok shape) (bare : shape.isBare) :
    i.Rejects (.type .deterministic t sys) := by
  have kind (noRecord : shape.isRecord = false) := isDeterministicKind_of_shape names look noRecord
  unfold Rejects
  rw [ruling_deterministic_eq look, deterministicRuling, look, ok_bind]
  cases shape with
  | pointer | builtin | enum => rfl
  | array | function | dependent =>
    rw [kind rfl]
    rfl
  | lvalueReference | rvalueReference | record | templateParam | synonym => cases bare

private theorem leads_ordinary (ordinary : i.setting.IsOrdinary t id) :
    i.Leads (.type .deterministic t sys) (.record .deterministic id sys) := by
  obtain ⟨look, notAwaitable, notLambda, notSafePtr, notNullablePtr⟩ := ordinary
  have kind : i.isDeterministicKind t = .ok false :=
    isDeterministicKind_eq_false_iff.mpr ⟨notAwaitable, notLambda, notSafePtr, notNullablePtr⟩
  refine ⟨[.record .deterministic id sys], ?_, List.mem_singleton_self _⟩
  rw [ruling_deterministic_eq look, deterministicRuling, look, ok_bind, kind]
  rfl

/-- What the table can say of a record. -/
theorem ruling_deterministic_record_cases
    (ruled : i.ruling (.record .deterministic id sys) = .ok x) :
    x = .accepted ∨ (x = .rejected ∧ i.setting.definedRecord id = .ok none)
      ∨ ∃ r, i.setting.DecidedBy id r ∧
        ((x = .rejected ∧ r.isUnion = true ∧ ∀ f ∈ r.fields, f.hasInitializer = false)
        ∨ ∃ sys', r.isUnion = false
          ∧ x = .rests (r.uninitializedTypes.map (.type .deterministic · sys'))) := by
  obtain ⟨defined, known, ruled⟩ := bind_eq_ok.mp ruled
  cases defined with
  | none =>
    cases ruled
    exact .inr (.inl ⟨rfl, known⟩)
  | some defined =>
    obtain ⟨r, look, ruled⟩ := bind_eq_ok.mp ruled
    obtain ⟨name, named, ruled⟩ := bind_eq_ok.mp ruled
    obtain ⟨isSystem, -, ruled⟩ := bind_eq_ok.mp ruled
    split at ruled
    · cases ruled
      exact .inl rfl
    next untrusted =>
    -- what is left is decided by the fields and bases of the definition
    have decided : i.setting.DecidedBy id r :=
      ⟨defined, name, known, look, named, by simpa using untrusted⟩
    split at ruled
    · next isUnion =>
      cases initialized : r.fields.any (·.hasInitializer) with
      | true =>
        rw [initialized] at ruled
        cases ruled
        exact .inl rfl
      | false =>
        rw [initialized] at ruled
        cases ruled
        exact .inr (.inr ⟨r, decided, .inl ⟨rfl, isUnion, by simpa using initialized⟩⟩)
    · next notUnion =>
      cases ruled
      exact .inr (.inr ⟨r, decided, .inr ⟨_, by simpa using notUnion, rfl⟩⟩)

private theorem rejects_undefined (missing : i.setting.definedRecord id = .ok none) :
    i.Rejects (.record .deterministic id sys) := by
  simp only [Rejects, ruling, missing, ok_bind]
  rfl

section Decided

variable {r : RecordDecl} (c : i.setting.unit.Consistent) (decided : i.setting.DecidedBy id r)
include c decided

/-- Of a record that its name does not settle the definition decides. -/
theorem ruling_of_decided (sys : Bool) : ∃ sys', i.ruling (.record .deterministic id sys) =
    .ok (if r.isUnion then if r.fields.any (·.hasInitializer) then .accepted else .rejected
      else .rests (r.uninitializedTypes.map (.type .deterministic · sys'))) := by
  obtain ⟨defined, name, known, look, named, untrusted⟩ := decided
  have inside := TranslationUnit.holds_of_entry look
  obtain ⟨isSystem, knownSystem, -⟩ :=
    (Setting.isSystemRecord_ends (π := fun _ => False) c inside).answer
  refine ⟨sys || isSystem, ?_⟩
  simp only [ruling, recordRuling, deterministicRecordRuling, known, look, named, knownSystem,
    ok_bind, untrusted, Bool.false_eq_true, if_false]
  split <;> rfl

private theorem rejects_union (isUnion : r.isUnion = true)
    (bare : ∀ f ∈ r.fields, f.hasInitializer = false) :
    i.Rejects (.record .deterministic id sys) := by
  obtain ⟨sys', ruled⟩ := ruling_of_decided c decided sys
  have none : r.fields.any (·.hasInitializer) = false := by simpa using bare
  unfold Rejects
  rw [ruled, isUnion, none]
  rfl

private theorem leads_uninitialized (notUnion : r.isUnion = false) {part : QualifiedType}
    (mem : part ∈ r.uninitializedTypes) :
    ∃ sys', i.Leads (.record .deterministic id sys) (.type .deterministic part sys') := by
  obtain ⟨sys', ruled⟩ := ruling_of_decided c decided sys
  rw [notUnion] at ruled
  exact ⟨sys', _, ruled, List.mem_map_of_mem mem⟩

end Decided

end Inspector

-- ============================================================ chains of types

namespace Setting

variable {s : Setting}

/-- A chain of parts left open leads from a type to one that is outright not deterministic. -/
def ReachesIndeterminate (s : Setting) (t : QualifiedType) : Prop :=
  ∃ last, ReflTransGen s.LeavesOpen t last ∧ s.IsIndeterminate last

/-- The same, from what a question about determinism is about. -/
def Reaches (s : Setting) : Question → Prop
  | .type _ t _ => s.ReachesIndeterminate t
  | .record _ id _ => ∀ t, s.IsOrdinary t id → s.ReachesIndeterminate t

/-- A part that is left open passes on what it reaches. -/
theorem ReachesIndeterminate.head {t part : QualifiedType} (leaves : s.LeavesOpen t part) :
    s.ReachesIndeterminate part → s.ReachesIndeterminate t := by
  rintro ⟨last, chain, indeterminate⟩
  exact ⟨last, .head leaves chain, indeterminate⟩

end Setting

namespace Question

/-- A question about determinism. -/
def AsksDeterminism : Question → Prop
  | .type a _ _ | .record a _ _ => a = .deterministic

/-- The same question about determinism, asked at another place. -/
inductive Elsewhere : Question → Question → Prop
  | type {t : QualifiedType} {sys₀ sys : Bool} :
    Elsewhere (.type .deterministic t sys₀) (.type .deterministic t sys)
  | record {id : RecordId} {sys₀ sys : Bool} :
    Elsewhere (.record .deterministic id sys₀) (.record .deterministic id sys)

private theorem Elsewhere.relates (sys₀ sys : Bool) :
    Aspect.deterministic.Relates Elsewhere sys₀ sys :=
  ⟨fun _ => .type, fun _ => .record⟩

end Question

namespace Inspector

variable {i : Inspector} {t : QualifiedType} {q q' : Question} {sys : Bool}

/-- Questions about determinism lead only to such questions. -/
theorem asksDeterminism_of_leads (asks : q.AsksDeterminism) (leads : i.Leads q q') :
    q'.AsksDeterminism := by
  suffices Stricter (fun _ q => q.AsksDeterminism) (i.ruling q) (i.ruling q) from
    of_leads this leads
  have relates (sys₀ sys : Bool) :
      Aspect.deterministic.Relates (fun _ q => q.AsksDeterminism) sys₀ sys :=
    ⟨fun _ => rfl, fun _ => rfl⟩
  cases q with
  | type a t sys =>
    cases asks
    exact .bind fun _ _ => stricter_deterministicRuling (relates sys sys)
  | record a id sys =>
    cases asks
    refine .bind fun defined _ => ?_
    cases defined with
    | none => exact .rejected
    | some defined => exact stricter_deterministicRecordRuling fun _ => relates _ _

/-- What is rejected is outright not deterministic. -/
theorem reaches_of_rejects (asks : q.AsksDeterminism) (rejected : i.Rejects q) :
    i.setting.Reaches q := by
  cases q with
  | type a t sys =>
    cases asks
    rcases ruling_deterministic_type_cases rejected with accepted | ⟨-, shape, look, bare⟩ |
      ⟨id, -, rests⟩
    · cases accepted
    · exact ⟨t, .refl, .bare look bare⟩
    · cases rests
  | record a id sys =>
    cases asks
    intro t ordinary
    rcases ruling_deterministic_record_cases rejected with accepted | ⟨-, missing⟩ |
      ⟨r, decided, ⟨-, isUnion, bare⟩ | ⟨sys', -, rests⟩⟩
    · cases accepted
    · exact ⟨t, .refl, .undefined ordinary missing⟩
    · exact ⟨t, .refl, .union ordinary decided isUnion bare⟩
    · cases rests

/-- A question leads to another one through what is left open. -/
theorem reaches_of_leads (asks : q.AsksDeterminism) (leads : i.Leads q q')
    (reaches : i.setting.Reaches q') : i.setting.Reaches q := by
  obtain ⟨on, ruled, mem⟩ := leads
  cases q with
  | type a t sys =>
    cases asks
    rcases ruling_deterministic_type_cases ruled with accepted | ⟨rejected, -⟩ |
      ⟨id, ordinary, rests⟩
    · cases accepted
      cases mem
    · cases rejected
    · cases rests
      cases List.mem_singleton.mp mem
      exact reaches t ordinary
  | record a id sys =>
    cases asks
    intro t ordinary
    rcases ruling_deterministic_record_cases ruled with accepted | ⟨rejected, -⟩ |
      ⟨r, decided, ⟨rejected, -⟩ | ⟨sys', notUnion, rests⟩⟩
    · cases accepted
      cases mem
    · cases rejected
    · cases rejected
    · cases rests
      obtain ⟨part, memPart, rfl⟩ := List.mem_map.mp mem
      exact .head ⟨id, r, ordinary, decided, notUnion, memPart⟩ reaches

private theorem reaches_of_chain {last : Question} (chain : ReflTransGen i.Leads q last)
    (asks : q.AsksDeterminism) (rejected : i.Rejects last) : i.setting.Reaches q := by
  induction chain using ReflTransGen.head_induction_on with
  | refl => exact reaches_of_rejects asks rejected
  | head leads _ ih => exact reaches_of_leads asks leads (ih (asksDeterminism_of_leads asks leads))

section Backwards

variable (c : i.setting.unit.Consistent)
include c

/-- A part that is left open is two questions away. -/
theorem chain_of_leavesOpen {part : QualifiedType} (leaves : i.setting.LeavesOpen t part) :
    ∃ sys', ReflTransGen i.Leads (.type .deterministic t sys) (.type .deterministic part sys') := by
  obtain ⟨id, r, ordinary, decided, notUnion, mem⟩ := leaves
  obtain ⟨sys', leads⟩ := leads_uninitialized c decided notUnion mem
  exact ⟨sys', .head (leads_ordinary ordinary) (.single leads)⟩

/-- What is outright not deterministic is rejected at once or through its record. -/
private theorem chain_of_indeterminate (names : i.setting.names.NamesRecords)
    (indeterminate : i.setting.IsIndeterminate t) :
    ∃ last, ReflTransGen i.Leads (.type .deterministic t sys) last ∧ i.Rejects last := by
  cases indeterminate with
  | bare look bare => exact ⟨_, .refl, rejects_bare names look bare⟩
  | undefined ordinary missing =>
    exact ⟨_, .single (leads_ordinary ordinary), rejects_undefined missing⟩
  | union ordinary decided isUnion bare =>
    exact ⟨_, .single (leads_ordinary ordinary), rejects_union c decided isUnion bare⟩

/-- A chain of open parts is a chain of questions, each of them about a type and then about its
record. -/
private theorem chain_of_reaches (names : i.setting.names.NamesRecords)
    (reaches : i.setting.ReachesIndeterminate t) :
    ∃ last, ReflTransGen i.Leads (.type .deterministic t sys) last ∧ i.Rejects last := by
  obtain ⟨end_, chain, indeterminate⟩ := reaches
  induction chain using ReflTransGen.head_induction_on generalizing sys with
  | refl => exact chain_of_indeterminate c names indeterminate
  | head leaves _ ih =>
    obtain ⟨sys', first⟩ := chain_of_leavesOpen c leaves
    obtain ⟨last, rest, rejected⟩ := @ih sys'
    exact ⟨last, first.trans rest, rejected⟩

end Backwards

-- ============================================================ chains that come back

/-- Where a question about determinism is asked does not matter. -/
theorem Fails.elsewhere {P : List (Aspect × RecordId)} {q₀ : Question} (h : i.Fails P q)
    (elsewhere : q₀.Elsewhere q) : i.Fails P q₀ := by
  refine h.of_stricter (fun q₀ q elsewhere => ?_) (fun q₀ q elsewhere => ?_) elsewhere
  · cases elsewhere <;> rfl
  · cases elsewhere with
    | type => exact .bind fun _ _ => stricter_deterministicRuling (Question.Elsewhere.relates _ _)
    | record =>
      refine .bind fun defined _ => ?_
      cases defined with
      | none => exact .rejected
      | some defined =>
        exact stricter_deterministicRecordRuling fun _ => Question.Elsewhere.relates _ _

/-- A definition fails alike, whatever record it is asked through and wherever. -/
theorem failsBy_of_key {k : Aspect × RecordId} (asks : q.AsksDeterminism)
    (asks' : q'.AsksDeterminism) (key : i.key? q = some k) (key' : i.key? q' = some k)
    (P : List (Aspect × RecordId)) (fails : i.FailsBy P (i.ruling q')) :
    i.FailsBy P (i.ruling q) := by
  cases q with
  | type => cases key
  | record a id sys =>
    cases q' with
    | type => cases key'
    | record a' id' sys' =>
      cases asks
      cases asks'
      obtain ⟨defined, known, rfl⟩ := definedRecord_of_key? key
      obtain ⟨_, known', same⟩ := definedRecord_of_key? key'
      cases same
      simp only [ruling, recordRuling, known, known', ok_bind] at fails ⊢
      have stricter : Stricter Question.Elsewhere (i.deterministicRecordRuling sys defined)
          (i.deterministicRecordRuling sys' defined) :=
        stricter_deterministicRecordRuling fun _ => Question.Elsewhere.relates _ _
      exact fails.of_stricter stricter fun _ _ elsewhere h => h.elsewhere elsewhere

-- ============================================================ determinism

/-- Each nested question about determinism puts one more record in progress. So a depth that exceeds
the records not in progress is enough, whatever contains itself. -/
theorem judgeWithin_determinism {π : Fault → Prop} (c : i.setting.unit.Consistent) {n : Nat}
    {P : List (Aspect × RecordId)} (ready : i.setting.unit.Ready P)
    (deep : 3 * i.setting.unit.records.size - P.length < n) :
    i.AnswersDeterminism π P (i.judgeWithin n) := by
  induction n generalizing P with
  | zero => exact absurd deep (Nat.not_lt_zero _)
  | succ n ih =>
    intro t sys inside
    refine .bind (deterministic_yields c ready (fun k ready' => ih ready' ?_) inside)
      fun _ told => .pure told
    have fits := ready'.length_le
    rw [List.length_cons] at fits ⊢
    omega

/-- There is room for every record under each of the guarded aspects. -/
private theorem records_lt_depth (i : Inspector) : 3 * i.setting.unit.records.size < i.depth :=
  calc 3 * i.setting.unit.records.size
    _ < 3 * i.setting.unit.records.size + 3 := Nat.lt_add_of_pos_right (by decide)
    _ ≤ i.depth := Nat.le_mul_of_pos_left _ (Nat.succ_pos _)

/-- A fresh classification answers, and it says that a type is not deterministic if and only if a
chain of fields without initializer and of bases leads from the type to one that is outright not so.
Records may contain each other in any way, and it does not matter whether library code is inspected
like user code. The vocabulary may be any that names records only, as that of every naming scheme
does. -/
theorem indeterminate_iff_chain {u : TranslationUnit} (consistent : u.inconsistency? = none)
    (config : Config) (names : config.vocabulary.NamesRecords) :
    ∃ s, Setting.of u config = .ok s ∧
      ∀ (userCodeMode : Bool) (t : QualifiedType) (voice : Voice), u.Holds .types t.id.index →
        ∃ verdict session,
          ((Inspector.mk s userCodeMode).judge .deterministic t).run (.start voice)
            = .ok (verdict, session)
          ∧ (verdict.sound = false ↔
            ∃ last, ReflTransGen s.LeavesOpen t last ∧ s.IsIndeterminate last) := by
  have c := TranslationUnit.inconsistency?_eq_none_iff.mp consistent
  obtain ⟨s, setting, rfl, rfl⟩ := (Setting.of_ends c config).answer
  refine ⟨s, setting, fun userCodeMode t voice inside => ?_⟩
  let i : Inspector := ⟨s, userCodeMode⟩
  have yields : Yields (fun _ => False) [] false (i.judge .deterministic t) _ :=
    judgeWithin_determinism c .nil (records_lt_depth i) inside
  obtain ⟨verdict, session, run, -, told⟩ := (yields (.start voice) ⟨rfl, rfl⟩).answer
  refine ⟨verdict, session, run, Iff.trans told ⟨fun fails => ?_, fun reaches => ?_⟩⟩
  · obtain ⟨last, chain, rejected⟩ := fails.exists_chain
    exact reaches_of_chain chain rfl rejected
  · obtain ⟨last, chain, rejected⟩ := chain_of_reaches (i := i) c names reaches
    exact fails_of_chain_of_alike (fun _ _ => asksDeterminism_of_leads)
      (fun _ _ _ => failsBy_of_key) chain rfl rejected

end Inspector

open TranslationUnit Relation in
/-- Also where a node holds another record that refers back to it, the node is not deterministic if
and only if a chain leads to a type that is outright not so. -/
theorem node_indeterminate_iff_chain :
    nodeList.inconsistency? = none ∧ Config.default.vocabulary.NamesRecords
    ∧ ∃ s, Setting.of nodeList .default = .ok s ∧
      ∃ verdict session,
        ((Inspector.mk s true).judge .deterministic ⟨⟨1⟩, false⟩).run (.start .silent)
          = .ok (verdict, session)
        ∧ (verdict.sound = false ↔
          ∃ last, ReflTransGen s.LeavesOpen ⟨⟨1⟩, false⟩ last ∧ s.IsIndeterminate last) := by
  have consistent : nodeList.inconsistency? = none := by decide
  have names := Vocabulary.namesRecords_ofScheme Options.default.policy
  obtain ⟨s, setting, all⟩ := Inspector.indeterminate_iff_chain consistent .default names
  exact ⟨consistent, names, s, setting, all true ⟨⟨1⟩, false⟩ .silent (by decide)⟩

open TranslationUnit Relation in
/-- A smart pointer without definition is deterministic, though no other record without definition
is. -/
theorem owner_deterministic_without_definition :
    nodeList.inconsistency? = none ∧ ∃ s, Setting.of nodeList .default = .ok s
      ∧ (∃ last id, ReflTransGen s.LeavesOpen ⟨⟨2⟩, false⟩ last ∧ s.shape last = .ok (.record id)
        ∧ s.definedRecord id = .ok none)
      ∧ ∃ verdict session,
        ((Inspector.mk s false).judge .deterministic ⟨⟨2⟩, false⟩).run (.start .silent)
          = .ok (verdict, session)
        ∧ verdict.sound = true :=
  ⟨by decide, _, rfl, ⟨_, _, .refl, rfl, rfl⟩, _, _, rfl, rfl⟩

end SafeDialect
