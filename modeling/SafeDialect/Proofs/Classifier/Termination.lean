/-
Every question comes to an end.

Questions about parts may nest as deep as a bound allows, and a question that would nest deeper has
no answer. A classification that knows no bound comes to an end if some bound is deep enough, and
then its answer is the one that every deeper bound gives too. So there are two things to show. More
depth keeps a finished answer: where questions about parts are answered, they are answered the same
way by an inspector that may go deeper, and by induction over the depth so is every question. And
some depth is enough: records in progress are not entered again, and between two of them questions
go through template arguments and naked members, which do not lead back to where they came from.
-/
import SafeDialect.Proofs.Classifier.Lockstep
import SafeDialect.Proofs.Classifier.Reuse
import SafeDialect.Proofs.Rules.Run

namespace SafeDialect

-- ============================================================ steps that go on the same way

namespace Tracks

variable {α : Type} {act act' : Inspect α}

/-- A step that asks nothing is the same at every depth. -/
theorem refl (act : Inspect α) : Tracks Eq act act := by
  rintro s _ rfl a t run
  exact ⟨t, run, rfl⟩

/-- What is asked quietly is answered the same. -/
private theorem quietly_eq (h : Tracks Eq act act') :
    Tracks Eq (Inspect.quietly act) (Inspect.quietly act') :=
  .bind (.refl _) fun _ => .bind (.refl _) fun _ => .bind h fun _ => .refl _

/-- Whether a record is in progress does not depend on the depth. -/
private theorem guarded_eq {aspect : Aspect} {id : RecordId} {provisional : α}
    (h : Tracks Eq act act') : Tracks Eq (Inspect.guarded aspect id provisional act)
      (Inspect.guarded aspect id provisional act') := by
  refine .bind (.refl _) fun before => ?_
  split
  · exact .refl _
  · exact .bind (.refl _) fun _ => .bind h fun _ => .refl _

/-- Nor does whether library code is being inspected. -/
private theorem inside_eq {isSystem : Bool} {act act' : Bool → Inspect α}
    (h : ∀ entered, Tracks Eq (act entered) (act' entered)) :
    Tracks Eq (Inspect.inside isSystem act) (Inspect.inside isSystem act') :=
  .bind (.refl _) fun _ => .bind (.refl _) fun _ => .bind (h _) fun _ => .refl _

/-- Members are asked about in turn. Where one answer agrees, the next member is the same. -/
private theorem allMembers_eq {entered : Bool} {l : List α} {passes passes' : α → Inspect Bool}
    {complaint : α → Location × String} (each : ∀ a, Tracks Eq (passes a) (passes' a)) :
    Tracks Eq (Inspect.allMembers entered passes complaint l)
      (Inspect.allMembers entered passes' complaint l) := by
  induction l with
  | nil => exact .refl _
  | cons head tail ih =>
    unfold Inspect.allMembers
    refine .bind (each head) fun b => ?_
    split
    · exact ih
    · exact .refl _

end Tracks

-- ============================================================ the classifier

namespace Inspector

variable {i : Inspector} {ask ask' : Ask} {t arg : QualifiedType} {n : Nat} {id defined : RecordId}
  (asks : ∀ a t, Tracks Eq (ask a t) (ask' a t))
include asks

/-- A question about a part, and an answer made of its verdict. -/
theorem asked_tracks {α : Type} (a : Aspect) (t : QualifiedType) (g : Verdict → α) :
    Tracks Eq (do return g (← ask a t)) (do return g (← ask' a t)) :=
  .bind (asks a t) fun _ => .refl _

-- ============================================================ aggregates

/-- A field is asked about up to four times, and each answer agrees. -/
private theorem nakedField_tracks {f : Field} :
    Tracks Eq (i.nakedField ask f) (i.nakedField ask' f) := by
  refine .look rfl fun t _ => .bind (.quietly_eq (asks .heapSafe t)) fun safe => ?_
  split
  · exact .refl _
  refine .bind (.quietly_eq (asks .nullablePtr t)) fun nullable => ?_
  split
  · split
    · exact .refl _
    · exact .bind (asks .nullablePtr t) fun _ => .refl _
  refine .bind (.quietly_eq (asks .nakedStruct t)) fun naked => ?_
  split
  · split
    · exact .refl _
    · exact .bind (asks .nakedStruct t) fun _ => .refl _
  · exact .bind (asks .heapSafe t) fun _ => .refl _

/-- The fields of a record, one after the other. -/
private theorem nakedRecord_tracks : Tracks Eq (i.nakedRecord ask id) (i.nakedRecord ask' id) := by
  refine .look rfl fun defined? _ => ?_
  cases defined? with
  | none => exact .refl _
  | some defined =>
    refine .look rfl fun r _ => ?_
    split
    · exact .refl _
    · exact .both (.allM_same fun _ _ => nakedField_tracks asks) (.refl _)

private theorem nakedStruct_tracks : Tracks Eq (i.nakedStruct ask t) (i.nakedStruct ask' t) := by
  refine .look rfl fun defined? _ => ?_
  cases defined? with
  | none => exact .refl _
  | some id =>
    refine .look rfl fun r _ => ?_
    split
    · exact .bind (nakedRecord_tracks asks) fun _ => .refl _
    · exact .refl _

/-- A nullable pointer asks about what it points to. -/
private theorem nullablePtr_tracks : Tracks Eq (i.nullablePtr ask t) (i.nullablePtr ask' t) := by
  refine .look rfl fun t _ => .look rfl fun isNullable _ => ?_
  split
  · refine .look rfl fun pointee? _ => ?_
    cases pointee? with
    | none => exact .refl _
    | some pointee => exact asked_tracks asks .heapSafe pointee _
  · exact .refl _

-- ============================================================ containers

private theorem argIsSafe_tracks : Tracks Eq (i.argIsSafe ask t n arg) (i.argIsSafe ask' t n arg) :=
  .bind (asks .heapSafe arg) fun _ => .refl _

private theorem argIsDeepConst_tracks :
    Tracks Eq (i.argIsDeepConst ask t n arg) (i.argIsDeepConst ask' t n arg) :=
  .bind (asks .deepConst arg) fun _ => .refl _

/-- An argument that is there is asked about, and else nothing is. -/
private theorem safeArg_tracks : Tracks Eq (i.safeArg ask t n) (i.safeArg ask' t n) := by
  refine .bind (.refl _) fun arg? => ?_
  cases arg? with
  | none => exact .refl _
  | some arg => exact argIsSafe_tracks asks

private theorem safeDeepConstArg_tracks :
    Tracks Eq (i.safeDeepConstArg ask t n) (i.safeDeepConstArg ask' t n) := by
  refine .bind (.refl _) fun arg? => ?_
  cases arg? with
  | none => exact .refl _
  | some arg => exact .both (argIsSafe_tracks asks) (argIsDeepConst_tracks asks)

private theorem pureArg_tracks : Tracks Eq (i.pureArg ask t n) (i.pureArg ask' t n) := by
  refine .bind (.refl _) fun arg? => ?_
  cases arg? with
  | none => exact .refl _
  | some arg =>
    exact .both (argIsSafe_tracks asks) (.both (argIsDeepConst_tracks asks) (.refl _))

/-- A vector asks about its element. -/
private theorem vector_tracks : Tracks Eq (i.vector ask t) (i.vector ask' t) := by
  refine .look rfl fun name _ => ?_
  split
  · exact .bind (safeArg_tracks asks) fun _ => .refl _
  · exact .refl _

private theorem hashmapArgs_tracks : Tracks Eq (i.hashmapArgs ask t) (i.hashmapArgs ask' t) :=
  .both (safeDeepConstArg_tracks asks) <| .both (safeArg_tracks asks) <|
    .both (pureArg_tracks asks) (pureArg_tracks asks)

/-- A hash map asks about its arguments. -/
private theorem hashmap_tracks : Tracks Eq (i.hashmap ask t) (i.hashmap ask' t) := by
  unfold hashmap
  split
  · exact .refl _
  refine .look rfl fun name _ => ?_
  split
  · exact .bind (hashmapArgs_tracks asks) fun _ => .refl _
  · exact .refl _

-- ============================================================ deep const types

/-- An owner asks about what it owns. -/
private theorem deepConstOwner_tracks :
    Tracks Eq (i.deepConstOwner ask t) (i.deepConstOwner ask' t) := by
  refine .look rfl fun isOwner _ => ?_
  split
  · refine .look rfl fun arg? _ => ?_
    cases arg? with
    | none => exact .refl _
    | some arg => exact asked_tracks asks .deepConst arg _
  · exact .refl _

/-- Fields and bases are asked about, methods are only looked at. -/
private theorem deepConstMembers_tracks {entered : Bool} {r : RecordDecl} :
    Tracks Eq (i.deepConstMembers ask entered r) (i.deepConstMembers ask' entered r) := by
  unfold deepConstMembers
  split
  · exact .refl _
  refine .bind (.allMembers_eq fun _ => asked_tracks asks .deepConst _ _) fun fields => ?_
  split
  · exact .refl _
  refine .bind (.refl _) fun methods => ?_
  split
  · exact .refl _
  · exact .bind (.allMembers_eq fun _ => asked_tracks asks .deepConst _ _) fun _ => .refl _

private theorem argOfRecord_tracks {location : Location} {arg : TemplateArg} :
    Tracks Eq (i.argOfRecord ask location n arg) (i.argOfRecord ask' location n arg) := by
  unfold argOfRecord
  split
  · refine .look rfl fun t _ => .bind (asks .heapSafe t) fun safe => ?_
    split
    · exact .refl _
    · exact .bind (asks .deepConst t) fun _ => .refl _
  · exact .refl _
  · exact .refl _

/-- The arguments of a record are asked about in turn. -/
private theorem argsDeepConst_tracks :
    Tracks Eq (i.argsDeepConst ask id) (i.argsDeepConst ask' id) := by
  refine .look rfl fun r _ => ?_
  split
  · exact .refl _
  · exact .allM_same fun _ _ => argOfRecord_tracks asks

private theorem deepConstDefined_tracks :
    Tracks Eq (i.deepConstDefined ask id defined) (i.deepConstDefined ask' id defined) := by
  refine .look rfl fun r _ => .look rfl fun isSystem _ => .inside_eq fun entered => ?_
  refine .bind (.refl _) fun s => ?_
  split
  · split
    · exact .refl _
    split
    · exact .bind (argsDeepConst_tracks asks) fun _ => .refl _
    · exact .refl _
  · split
    · exact deepConstMembers_tracks asks
    · exact .refl _

/-- A record as deep const. -/
private theorem deepConstRecord_tracks :
    Tracks Eq (i.deepConstRecord ask id) (i.deepConstRecord ask' id) := by
  refine .look rfl fun defined? _ => ?_
  cases defined? with
  | none => exact .refl _
  | some defined => exact .guarded_eq (deepConstDefined_tracks asks)

/-- A type as deep const: each branch asks at most once before it goes on. -/
private theorem deepConst_tracks : Tracks Eq (i.deepConst ask t) (i.deepConst ask' t) := by
  refine .look rfl fun t _ => .look rfl fun shape _ => ?_
  split
  · exact .refl _
  split
  · exact .refl _
  refine .bind (deepConstOwner_tracks asks) fun isOwner => ?_
  split
  · exact .refl _
  refine .look rfl fun isSafePtr _ => ?_
  split
  · exact .refl _
  refine .look rfl fun isNullable _ => ?_
  split
  · exact .refl _
  split
  · exact deepConstRecord_tracks asks
  · exact .refl _
  · exact .refl _

-- ============================================================ safety

/-- The members of a record as safe. -/
private theorem safeMembers_tracks {entered : Bool} :
    Tracks Eq (i.safeMembers ask entered id) (i.safeMembers ask' entered id) := by
  refine .look rfl fun r _ => ?_
  split
  · exact .refl _
  · exact .both (.allMembers_eq fun _ => asked_tracks asks .heapSafe _ _)
      (.allMembers_eq fun _ => asked_tracks asks .heapSafe _ _)

/-- A record as safe. -/
private theorem safeRecord_tracks : Tracks Eq (i.safeRecord ask id) (i.safeRecord ask' id) := by
  refine .look rfl fun defined? _ => ?_
  cases defined? with
  | none => exact .refl _
  | some defined =>
    refine .guarded_eq (.look rfl fun name _ => ?_)
    split
    · exact .refl _
    refine .look rfl fun r _ => .look rfl fun isSystem _ => ?_
    split
    · exact .refl _
    · exact .inside_eq fun _ => safeMembers_tracks asks

/-- A compound type asks about what its layer or its name says. -/
private theorem safeCompound_tracks {shape : TypeShape} :
    Tracks Eq (i.safeCompound ask t shape) (i.safeCompound ask' t shape) := by
  refine .bind (vector_tracks asks) fun vector => ?_
  split
  · exact .refl _
  refine .bind (hashmap_tracks asks) fun hashmap => ?_
  split
  · exact .refl _
  refine .look rfl fun isSafePtr _ => ?_
  split
  · refine .look rfl fun pointee? _ => ?_
    cases pointee? with
    | none => exact .refl _
    | some pointee => exact asked_tracks asks .heapSafe pointee _
  split
  · exact safeRecord_tracks asks
  · exact .refl _
  · exact .refl _

/-- A type as safe. -/
private theorem safe_tracks : Tracks Eq (i.safe ask t) (i.safe ask' t) := by
  refine .look rfl fun t _ => .look rfl fun stackOnly _ => ?_
  split
  · exact .refl _
  refine .look rfl fun shape _ => ?_
  split
  · exact .refl _
  refine .look rfl fun isAwaitable _ => ?_
  split
  · exact .refl _
  · exact safeCompound_tracks asks

-- ============================================================ determinism

/-- A record as deterministic. -/
private theorem deterministicRecord_tracks :
    Tracks Eq (i.deterministicRecord ask id) (i.deterministicRecord ask' id) := by
  refine .look rfl fun defined? _ => ?_
  cases defined? with
  | none => exact .refl _
  | some defined =>
    refine .guarded_eq (.look rfl fun name _ => ?_)
    split
    · exact .refl _
    refine .look rfl fun r _ => .look rfl fun isSystem _ => .inside_eq fun entered => ?_
    split
    · exact .refl _
    refine .both (.allMembers_eq fun f => ?_)
      (.allMembers_eq fun _ => asked_tracks asks .deterministic _ _)
    split
    · exact .refl _
    · exact asked_tracks asks .deterministic _ _

/-- A type as deterministic. -/
private theorem deterministic_tracks :
    Tracks Eq (i.deterministic ask t) (i.deterministic ask' t) := by
  refine .look rfl fun t _ => .look rfl fun shape _ => ?_
  split
  · exact .refl _
  split
  · exact .refl _
  refine .look rfl fun byKind _ => ?_
  split
  · exact .refl _
  split
  · exact deterministicRecord_tracks asks
  · exact .refl _
  · exact .refl _

-- ============================================================ every aspect

/-- Where the questions about parts are answered the same way, so is the question about the
whole. -/
theorem assess_tracks (a : Aspect) (t : QualifiedType) :
    Tracks Eq (i.assess ask a t) (i.assess ask' a t) := by
  cases a with
  | heapSafe => exact .bind (safe_tracks asks) fun _ => .refl _
  | deterministic => exact .bind (deterministic_tracks asks) fun _ => .refl _
  | stackOnly => exact .refl _
  | nullablePtr => exact nullablePtr_tracks asks
  | nakedStruct => exact nakedStruct_tracks asks
  | deepConst => exact deepConst_tracks asks

omit asks

/-- More depth keeps a finished answer. -/
theorem judgeWithin_tracks {depth deeper : Nat} (le : depth ≤ deeper) (a : Aspect)
    (t : QualifiedType) : Tracks Eq (i.judgeWithin depth a t) (i.judgeWithin deeper a t) := by
  induction depth generalizing deeper a t with
  | zero => exact .error
  | succ depth ih =>
    cases deeper with
    | zero => exact absurd le (Nat.not_succ_le_zero depth)
    | succ deeper =>
      exact assess_tracks (fun a t => ih (Nat.le_of_succ_le_succ le) a t) a t

-- ============================================================ questions from outside

/-- More depth keeps the answer to every question from outside. -/
private theorem answerWithin_tracks {depth deeper : Nat} (le : depth ≤ deeper) (q : Query) :
    Tracks Eq (i.answerWithin depth q) (i.answerWithin deeper q) := by
  have asks (a : Aspect) (t : QualifiedType) := judgeWithin_tracks (i := i) le a t
  cases q with
  | type a t => exact asks a t
  | vector t => exact vector_tracks asks
  | hashmap t => exact hashmap_tracks asks
  | safeRecord id => exact .bind (safeRecord_tracks asks) fun _ => .refl _
  | deterministicRecord id => exact .bind (deterministicRecord_tracks asks) fun _ => .refl _
  | deepConstRecord id => exact deepConstRecord_tracks asks
  | nakedRecord id => exact .bind (nakedRecord_tracks asks) fun _ => .refl _
  | unionRecord id => exact .refl _

/-- However records refer to each other and to themselves, every question about the unit comes to
an end, with one answer that no greater depth changes; and so does every wish for the reasons of a
verdict, whatever has been asked before. -/
theorem questions_end_at_depth {u : TranslationUnit} (consistent : u.inconsistency? = none)
    (types : u.TypesFounded) (naked : u.NakedFounded) (config : Config) :
    ∃ s, Setting.of u config = .ok s
      ∧ (∀ (userCodeMode : Bool) (voice : Voice) (q : Query), q.Fits u → ∃ verdict after,
        ∀ depth, (Inspector.mk s userCodeMode).depth ≤ depth →
          ((Inspector.mk s userCodeMode).answerWithin depth q).run (.start voice)
            = .ok (verdict, .start after))
      ∧ ∀ (l : Ledger) (a : Aspect) (t : QualifiedType), u.Holds .types t.id.index →
        ∃ remarks l', l.explain s a t = .ok (remarks, l') := by
  have c := TranslationUnit.inconsistency?_eq_none_iff.mp consistent
  obtain ⟨s, setting, rfl, -⟩ := (Setting.of_ends c config).answer
  obtain ⟨depths⟩ := c.depths (π := fun _ => False) types naked
  refine ⟨s, setting, fun userCodeMode voice q fits => ?_, fun l a t inside => ?_⟩
  · have restores := answer_restores (i := ⟨s, userCodeMode⟩) (b := depths.toBound) c
      (depths.naked id) fits
    obtain ⟨verdict, lines, run⟩ := restores.transcript (answer_scripted q)
    refine ⟨verdict, voice.sayAll lines, fun depth le => ?_⟩
    -- the answer at the depth of the inspector is kept at every greater one
    have keeps := answerWithin_tracks (i := ⟨s, userCodeMode⟩) le q
    obtain ⟨after, same, rfl⟩ := keeps _ _ rfl _ _ (run voice)
    exact same
  · obtain ⟨⟨remarks, l'⟩, explained, -⟩ := (Ledger.explain_ends c depths inside).answer
    exact ⟨remarks, l', explained⟩

end Inspector

open TranslationUnit in
/-- The node of a list leads back to itself through the pointer that it owns, and what it holds
leads back to the node. -/
theorem nodeList_questions_end_at_depth :
    nodeList.inconsistency? = none ∧ nodeList.TypesFounded ∧ nodeList.NakedFounded
    ∧ ∃ s, Setting.of nodeList .default = .ok s
      ∧ (∃ verdict after, ∀ depth, (Inspector.mk s true).depth ≤ depth →
        ((Inspector.mk s true).answerWithin depth (.type .heapSafe ⟨⟨2⟩, false⟩)).run
          (.start (.speaking .error)) = .ok (verdict, .start after))
      ∧ ∃ remarks l', Ledger.empty.explain s .heapSafe ⟨⟨2⟩, false⟩ = .ok (remarks, l') := by
  have consistent : nodeList.inconsistency? = none := by decide
  have types := (inconsistency?_eq_none_iff.mp consistent).typesFounded (by decide)
  have naked : nodeList.NakedFounded := nakedFounded_of_untagged (by decide)
  obtain ⟨s, setting, answers, explains⟩ :=
    Inspector.questions_end_at_depth consistent types naked .default
  refine ⟨consistent, types, naked, s, setting, ?_, ?_⟩
  · exact answers true (.speaking .error) (.type .heapSafe ⟨⟨2⟩, false⟩) (by decide)
  · exact explains .empty .heapSafe ⟨⟨2⟩, false⟩ (by decide)

end SafeDialect
