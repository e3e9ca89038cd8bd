/-
A classification follows a script.

What a step answers, which remarks it makes and in which order, and where it leaves the guard and
the library flag: none of this depends on the voice. The voice only decides what gets out of the
remarks, and how loud. So a quiet run and one that speaks give the same verdict, and the notes of a
failure are those of the run that found it. `Scripted` says so of one step; the step lemma is that
of `assess`, and every depth follows by induction.
-/
import SafeDialect.Ledger
import SafeDialect.Proofs.Outcome

namespace SafeDialect

-- ============================================================ voices

namespace Voice

/-- A voice that has several things to say. -/
def sayAll (v : Voice) (lines : List (Location × String)) : Voice :=
  lines.foldl (fun v line => v.say line.1 line.2) v

/-- Several things are said one after the other. -/
theorem sayAll_append (v : Voice) (first rest : List (Location × String)) :
    v.sayAll (first ++ rest) = (v.sayAll first).sayAll rest :=
  List.foldl_append

/-- Nothing gets out of a silent voice. -/
theorem silent_sayAll (lines : List (Location × String)) : silent.sayAll lines = silent := by
  induction lines with
  | nil => rfl
  | cons line rest ih => exact ih

/-- A voice that is down to notes makes a note of every line. -/
theorem sayAll_of_note (said : List Remark) (lines : List (Location × String)) :
    Voice.sayAll ⟨some .note, said⟩ lines =
      ⟨some .note, said ++ lines.map fun line => ⟨line.1, line.2, .note⟩⟩ := by
  induction lines generalizing said with
  | nil =>
    rw [List.map_nil, List.append_nil]
    rfl
  | cons line rest ih =>
    show Voice.sayAll ⟨some .note, said ++ [⟨line.1, line.2, .note⟩]⟩ rest = _
    rw [ih, List.map_cons, List.append_assoc]
    rfl

end Voice

-- ============================================================ scripts

/-- What a step does, apart from the voice. -/
structure Script (α : Type) where
  answer : α
  inProgress : List (Aspect × RecordId)
  inSystem : Bool
  lines : List (Location × String)

/-- The script, spoken by a voice. -/
def Script.spoken {α : Type} (k : Script α) (voice : Voice) : α × Session :=
  (k.answer, ⟨k.inProgress, k.inSystem, voice.sayAll k.lines⟩)

/-- A step follows a script that is the same for every voice. -/
def Scripted {α : Type} (act : Inspect α) : Prop :=
  ∀ P sys, ∃ script : Result (Script α), ∀ voice,
    act ⟨P, sys, voice⟩ = script.map (·.spoken voice)

namespace Scripted

open Inspect

variable {α β : Type} {act : Inspect α}

/-- A script without lines. -/
theorem pure {a : α} : Scripted (Pure.pure a) :=
  fun P sys => ⟨.ok ⟨a, P, sys, []⟩, fun _ => rfl⟩

/-- A fault comes up whatever the voice is. -/
theorem error {fault : Fault} : Scripted (throw fault : Inspect α) :=
  fun _ _ => ⟨.error fault, fun _ => rfl⟩

/-- The lines of both steps, one after the other. The second script starts where the first one
leaves the guard and the flag. -/
theorem bind {f : α → Inspect β} (first : Scripted act) (next : ∀ a, Scripted (f a)) :
    Scripted (act >>= f) := by
  intro P sys
  obtain ⟨script, ofAct⟩ := first P sys
  cases script with
  | error fault =>
    refine ⟨.error fault, fun voice => ?_⟩
    show (act ⟨P, sys, voice⟩ >>= fun end_ => f end_.1 end_.2) = _
    rw [ofAct]
    rfl
  | ok k =>
    obtain ⟨script', ofNext⟩ := next k.answer k.inProgress k.inSystem
    refine ⟨script'.map fun k' => { k' with lines := k.lines ++ k'.lines }, fun voice => ?_⟩
    show (act ⟨P, sys, voice⟩ >>= fun end_ => f end_.1 end_.2) = _
    rw [ofAct]
    show f k.answer ⟨k.inProgress, k.inSystem, voice.sayAll k.lines⟩ = _
    rw [ofNext]
    cases script' with
    | error fault => rfl
    | ok k' =>
      show Except.ok (k'.spoken (voice.sayAll k.lines)) = Except.ok (Script.spoken _ voice)
      unfold Script.spoken
      rw [Voice.sayAll_append]

/-- A look-up at the start of a step. -/
theorem look {x : Result α} {f : α → Inspect β} (next : ∀ a, x = .ok a → Scripted (f a)) :
    Scripted (liftM x >>= f) := by
  cases x with
  | error fault => exact error
  | ok a => exact next a rfl

/-- Reading the session for anything but its voice. -/
theorem get_bind {f : Session → Inspect β}
    (deaf : ∀ P sys voice, f ⟨P, sys, voice⟩ = f ⟨P, sys, .silent⟩) (next : ∀ s, Scripted (f s)) :
    Scripted (get >>= f) := by
  intro P sys
  obtain ⟨script, ofNext⟩ := next ⟨P, sys, .silent⟩ P sys
  refine ⟨script, fun voice => ?_⟩
  show f ⟨P, sys, voice⟩ ⟨P, sys, voice⟩ = _
  rw [deaf, ofNext]

-- ============================================================ building blocks

/-- A script of one line. -/
theorem remark {location : Location} {message : String} : Scripted (remark location message) :=
  fun P sys => ⟨.ok ⟨⟨⟩, P, sys, [(location, message)]⟩, fun _ => rfl⟩

/-- A script of one line or none, as the library flag has it. -/
theorem remarkOnMember {entered : Bool} {location : Location} {message : String} :
    Scripted (remarkOnMember entered location message) := by
  refine get_bind (fun _ _ _ => rfl) fun s => ?_
  split
  · exact remark
  · exact pure

/-- A remark and a bad answer. -/
theorem complaint {location : Location} {message : String} {a : α} :
    Scripted (do Inspect.remark location message; return a) :=
  bind remark fun _ => pure

/-- What is done quietly has no lines. -/
theorem quietly (h : Scripted act) : Scripted (quietly act) := by
  intro P sys
  obtain ⟨script, ofAct⟩ := h P sys
  refine ⟨script.map fun k => { k with lines := [] }, fun voice => ?_⟩
  show (act ⟨P, sys, .silent⟩ >>= fun end_ =>
    .ok (end_.1, { end_.2 with voice := voice })) = _
  rw [ofAct]
  cases script with
  | error fault => rfl
  | ok k => rfl

/-- Whether a record is in progress is no matter of the voice. -/
theorem guarded {aspect : Aspect} {id : RecordId} {provisional : α} (h : Scripted act) :
    Scripted (guarded aspect id provisional act) := by
  intro P sys
  by_cases inProgress : P.contains (aspect, id) = true
  · refine ⟨.ok ⟨provisional, P, sys, []⟩, fun voice => ?_⟩
    show (if P.contains (aspect, id) then _ else _ : Inspect α) ⟨P, sys, voice⟩ = _
    rw [if_pos inProgress]
    rfl
  · obtain ⟨script, ofAct⟩ := h ((aspect, id) :: P) sys
    refine ⟨script.map fun k => { k with inProgress := k.inProgress.erase (aspect, id) },
      fun voice => ?_⟩
    show (if P.contains (aspect, id) then _ else _ : Inspect α) ⟨P, sys, voice⟩ = _
    rw [if_neg inProgress]
    show (act ⟨(aspect, id) :: P, sys, voice⟩ >>= fun end_ =>
      .ok (end_.1, { end_.2 with inProgress := end_.2.inProgress.erase (aspect, id) })) = _
    rw [ofAct]
    cases script with
    | error fault => rfl
    | ok k => rfl

/-- Neither is whether a session is inside library code. -/
theorem inside {isSystem : Bool} {act : Bool → Inspect α} (h : ∀ entered, Scripted (act entered)) :
    Scripted (inside isSystem act) := by
  intro P sys
  let entered := isSystem && !sys
  obtain ⟨script, ofAct⟩ := h entered P (sys || isSystem)
  refine ⟨script.map fun k => { k with inSystem := k.inSystem && !entered }, fun voice => ?_⟩
  show (act entered ⟨P, sys || isSystem, voice⟩ >>= fun end_ =>
    .ok (end_.1, { end_.2 with inSystem := end_.2.inSystem && !entered })) = _
  rw [ofAct]
  cases script with
  | error fault => rfl
  | ok k => rfl

section Lists

variable {passes : α → Inspect Bool} (each : ∀ a, Scripted (passes a))
include each

/-- The elements are asked about in turn, and the first that fails ends the script. -/
theorem allM {l : List α} : Scripted (l.allM passes) := by
  induction l with
  | nil => exact pure
  | cons head tail ih =>
    unfold List.allM
    refine bind (each head) fun b => ?_
    cases b with
    | false => exact pure
    | true => exact ih

/-- So are members, with a line about the first that is bad. -/
theorem allMembers {entered : Bool} {complaint : α → Location × String} {l : List α} :
    Scripted (allMembers entered passes complaint l) := by
  induction l with
  | nil => exact pure
  | cons head tail ih =>
    unfold Inspect.allMembers
    refine bind (each head) fun b => ?_
    cases b with
    | false => exact bind remarkOnMember fun _ => pure
    | true => exact ih

end Lists

/-- Two questions, the second only if the answer to the first is good. -/
theorem both {first next : Inspect Bool} (ofFirst : Scripted first) (ofNext : Scripted next) :
    Scripted (do if ← first then next else return false) := by
  refine bind ofFirst fun b => ?_
  cases b with
  | false => exact pure
  | true => exact ofNext

/-- A question, and a complaint if the answer is bad. -/
theorem orComplaint {question : Inspect α} {good : α → Bool} {complaint : Inspect PUnit}
    (ofQuestion : Scripted question) (ofComplaint : Scripted complaint) :
    Scripted (do
      if good (← question) then return true
      else
        complaint
        return false) := by
  refine bind ofQuestion fun a => ?_
  split
  · exact pure
  · exact bind ofComplaint fun _ => pure

end Scripted

-- ============================================================ the classifier

namespace Inspector

variable {i : Inspector} {ask : Ask} {t arg : QualifiedType} {n : Nat} {id defined : RecordId}

/-- What is said of a union depends on its fields alone. -/
theorem unionRecord_scripted : Scripted (i.unionRecord id) := by
  refine .look fun defined? _ => ?_
  cases defined? with
  | none => exact .pure
  | some defined =>
    refine .look fun r _ => .allM fun f => .look fun shape _ => ?_
    split
    · exact .complaint
    · exact .pure

private theorem remarkAtContainer_scripted {message : String} :
    Scripted (i.remarkAtContainer t message) :=
  .look fun _ _ => .remark

/-- A missing argument is one line. -/
private theorem requiredArg_scripted : Scripted (i.requiredArg t n) := by
  refine .look fun arg? _ => ?_
  cases arg? with
  | some arg => exact .pure
  | none => exact .bind remarkAtContainer_scripted fun _ => .pure

/-- Where an argument stands and how its type is spelt is looked up. -/
private theorem remarkOnArg_scripted {complaint : String} :
    Scripted (i.remarkOnArg t n arg complaint) :=
  .look fun _ _ => .look fun _ _ => .remark

/-- The first function with side effects is one line. -/
private theorem allPure_scripted {message : String} {operators : List FunctionId} :
    Scripted (i.allPure message operators) := by
  induction operators with
  | nil => exact .pure
  | cons op rest ih =>
    refine .look fun isPure _ => ?_
    cases isPure with
    | true => exact ih
    | false => exact .look fun _ _ => .complaint

private theorem argIsPure_scripted : Scripted (i.argIsPure t n arg) := by
  refine .look fun spelling _ => .look fun defined? _ => ?_
  cases defined? with
  | none => exact .bind remarkAtContainer_scripted fun _ => .pure
  | some id =>
    refine .look fun operators _ => ?_
    split
    · exact .bind remarkAtContainer_scripted fun _ => .pure
    · exact allPure_scripted

private theorem deepConstMethod_scripted {f : FunctionId} : Scripted (i.deepConstMethod f) := by
  refine .look fun f _ => ?_
  split
  · exact .complaint
  · exact .pure

private theorem nakedMethod_scripted {r : RecordDecl} {f : FunctionId} :
    Scripted (i.nakedMethod r f) := by
  refine .look fun f _ => ?_
  split
  · exact .pure
  · exact .complaint

variable (asks : ∀ a t, Scripted (ask a t))
include asks

-- ============================================================ aggregates

/-- A field is asked about quietly, and once more aloud if it is bad. -/
private theorem nakedField_scripted {f : Field} : Scripted (i.nakedField ask f) := by
  have reasons (a : Aspect) (t : QualifiedType) (location : Location) (message : String) :
      Scripted (do
        let _ ← ask a t
        Inspect.remark location message
        return false) :=
    .bind (asks a t) fun _ => .complaint
  refine .look fun t _ => .bind (.quietly (asks .heapSafe t)) fun safe => ?_
  split
  · exact .pure
  refine .bind (.quietly (asks .nullablePtr t)) fun nullable => ?_
  split
  · split
    · exact .pure
    · exact reasons _ _ _ _
  refine .bind (.quietly (asks .nakedStruct t)) fun naked => ?_
  split
  · split
    · exact .pure
    · exact reasons _ _ _ _
  · exact reasons _ _ _ _

/-- A record as a naked struct: its bases, its fields and its methods, in this order. -/
theorem nakedRecord_scripted : Scripted (i.nakedRecord ask id) := by
  refine .look fun defined? _ => ?_
  cases defined? with
  | none => exact .pure
  | some defined =>
    refine .look fun r _ => ?_
    split
    · exact .complaint
    · exact .both (.allM fun _ => nakedField_scripted asks) (.allM fun _ => nakedMethod_scripted)

private theorem nakedStruct_scripted : Scripted (i.nakedStruct ask t) := by
  refine .look fun defined? _ => ?_
  cases defined? with
  | none => exact .pure
  | some id =>
    refine .look fun r _ => ?_
    split
    · exact .bind (nakedRecord_scripted asks) fun _ => .pure
    · exact .pure

/-- A nullable pointer: what it points to is asked about aloud. -/
private theorem nullablePtr_scripted : Scripted (i.nullablePtr ask t) := by
  refine .look fun t _ => .look fun isNullable _ => ?_
  split
  · refine .look fun pointee? _ => ?_
    cases pointee? with
    | none => exact .pure
    | some pointee => exact .bind (asks .heapSafe pointee) fun _ => .pure
  · exact .pure

-- ============================================================ containers

private theorem argIsSafe_scripted : Scripted (i.argIsSafe ask t n arg) :=
  .orComplaint (asks .heapSafe arg) remarkOnArg_scripted

private theorem argIsDeepConst_scripted : Scripted (i.argIsDeepConst ask t n arg) :=
  .orComplaint (asks .deepConst arg) remarkOnArg_scripted

/-- An argument of a container: that it is there, and what it is. -/
private theorem safeArg_scripted : Scripted (i.safeArg ask t n) := by
  refine .bind requiredArg_scripted fun arg? => ?_
  cases arg? with
  | none => exact .pure
  | some arg => exact argIsSafe_scripted asks

private theorem safeDeepConstArg_scripted : Scripted (i.safeDeepConstArg ask t n) := by
  refine .bind requiredArg_scripted fun arg? => ?_
  cases arg? with
  | none => exact .pure
  | some arg => exact .both (argIsSafe_scripted asks) (argIsDeepConst_scripted asks)

private theorem pureArg_scripted : Scripted (i.pureArg ask t n) := by
  refine .bind requiredArg_scripted fun arg? => ?_
  cases arg? with
  | none => exact .pure
  | some arg =>
    exact .both (argIsSafe_scripted asks) (.both (argIsDeepConst_scripted asks) argIsPure_scripted)

/-- A vector speaks of its element. -/
theorem vector_scripted : Scripted (i.vector ask t) := by
  refine .look fun name _ => ?_
  split
  · exact .bind (safeArg_scripted asks) fun _ => .pure
  · exact .pure

private theorem hashmapArgs_scripted : Scripted (i.hashmapArgs ask t) :=
  .both (safeDeepConstArg_scripted asks)
    (.both (safeArg_scripted asks) (.both (pureArg_scripted asks) (pureArg_scripted asks)))

/-- A hash map speaks of its arguments in order. -/
theorem hashmap_scripted : Scripted (i.hashmap ask t) := by
  unfold hashmap
  split
  · exact .pure
  refine .look fun name _ => ?_
  split
  · exact .bind (hashmapArgs_scripted asks) fun _ => .pure
  · exact .pure

-- ============================================================ deep const types

/-- An owner speaks of what it owns. -/
private theorem deepConstOwner_scripted : Scripted (i.deepConstOwner ask t) := by
  refine .look fun isOwner _ => ?_
  split
  · refine .look fun arg? _ => ?_
    cases arg? with
    | none => exact .pure
    | some arg => exact .bind (asks .deepConst arg) fun _ => .pure
  · exact .pure

/-- The members of a record: its fields, its methods and its bases, in this order. -/
private theorem deepConstMembers_scripted {entered : Bool} {r : RecordDecl} :
    Scripted (i.deepConstMembers ask entered r) := by
  unfold deepConstMembers
  split
  · exact .complaint
  refine .bind (.allMembers fun _ => .bind (asks _ _) fun _ => .pure) fun fields => ?_
  split
  · exact .pure
  refine .bind (.allM fun _ => deepConstMethod_scripted) fun methods => ?_
  split
  · exact .pure
  · exact .bind (.allMembers fun _ => .bind (asks _ _) fun _ => .pure) fun _ => .pure

private theorem argOfRecord_scripted {location : Location} {arg : TemplateArg} :
    Scripted (i.argOfRecord ask location n arg) := by
  unfold argOfRecord
  split
  · refine .look fun t _ => .bind (asks .heapSafe t) fun safe => ?_
    split
    · exact .look fun _ _ => .complaint
    refine .bind (asks .deepConst t) fun deepConst => ?_
    split
    · exact .look fun _ _ => .complaint
    · exact .pure
  · exact .pure
  · exact .pure

/-- The arguments of a record, or that it has none. -/
private theorem argsDeepConst_scripted : Scripted (i.argsDeepConst ask id) := by
  refine .look fun r _ => ?_
  split
  · exact .pure
  · exact .allM fun _ => argOfRecord_scripted asks

private theorem deepConstDefined_scripted : Scripted (i.deepConstDefined ask id defined) := by
  refine .look fun r _ => .look fun isSystem _ => .inside fun entered => ?_
  refine .get_bind (fun _ _ _ => rfl) fun s => ?_
  split
  · split
    · exact .pure
    split
    · exact .bind (argsDeepConst_scripted asks) fun _ => .pure
    · exact .pure
  · split
    · exact deepConstMembers_scripted asks
    · exact .pure

/-- A record as deep const. -/
theorem deepConstRecord_scripted : Scripted (i.deepConstRecord ask id) := by
  refine .look fun defined? _ => ?_
  cases defined? with
  | none => exact .pure
  | some defined => exact .guarded (deepConstDefined_scripted asks)

/-- A type as deep const: each branch looks something up, asks about a part or is at hand. -/
private theorem deepConst_scripted : Scripted (i.deepConst ask t) := by
  refine .look fun t _ => .look fun shape _ => ?_
  split
  · exact .pure
  split
  · exact .pure
  refine .bind (deepConstOwner_scripted asks) fun isOwner => ?_
  split
  · exact .pure
  refine .look fun isSafePtr _ => ?_
  split
  · exact .pure
  refine .look fun isNullable _ => ?_
  split
  · exact .pure
  split
  · exact deepConstRecord_scripted asks
  · exact .pure
  · exact .pure

-- ============================================================ safety

/-- The members of a record: a union by its primitives, another one by its fields and bases. -/
private theorem safeMembers_scripted {entered : Bool} :
    Scripted (i.safeMembers ask entered id) := by
  refine .look fun r _ => ?_
  split
  · exact unionRecord_scripted
  · exact .both (.allMembers fun _ => .bind (asks _ _) fun _ => .pure)
      (.allMembers fun _ => .bind (asks _ _) fun _ => .pure)

/-- A record as safe. -/
theorem safeRecord_scripted : Scripted (i.safeRecord ask id) := by
  refine .look fun defined? _ => ?_
  cases defined? with
  | none => exact .pure
  | some defined =>
    refine .guarded (.look fun name _ => ?_)
    split
    · exact .pure
    refine .look fun r _ => .look fun isSystem _ => ?_
    split
    · exact .bind .remarkOnMember fun _ => .pure
    · exact .inside fun entered => safeMembers_scripted asks

private theorem safePointee_scripted : Scripted (i.safePointee ask t) := by
  refine .look fun pointee? _ => ?_
  cases pointee? with
  | none => exact .pure
  | some pointee => exact .bind (asks .heapSafe pointee) fun _ => .pure

/-- A compound type is told by its layer and its name. -/
private theorem safeCompound_scripted {shape : TypeShape} :
    Scripted (i.safeCompound ask t shape) := by
  refine .bind (vector_scripted asks) fun vector => ?_
  split
  · exact .pure
  refine .bind (hashmap_scripted asks) fun hashmap => ?_
  split
  · exact .pure
  refine .look fun isSafePtr _ => ?_
  split
  · exact safePointee_scripted asks
  split
  · exact safeRecord_scripted asks
  · exact .pure
  · exact .pure

/-- A type as safe. -/
private theorem safe_scripted : Scripted (i.safe ask t) := by
  refine .look fun t _ => .look fun stackOnly _ => ?_
  split
  · exact .pure
  refine .look fun shape _ => ?_
  split
  · exact .pure
  refine .look fun isAwaitable _ => ?_
  split
  · exact .pure
  · exact safeCompound_scripted asks

-- ============================================================ determinism

/-- A record as deterministic. -/
theorem deterministicRecord_scripted : Scripted (i.deterministicRecord ask id) := by
  refine .look fun defined? _ => ?_
  cases defined? with
  | none => exact .pure
  | some defined =>
    refine .guarded (.look fun name _ => ?_)
    split
    · exact .pure
    refine .look fun r _ => .look fun isSystem _ => .inside fun entered => ?_
    split
    · exact .pure
    refine .both (.allMembers fun f => ?_) (.allMembers fun _ => .bind (asks _ _) fun _ => .pure)
    split
    · exact .pure
    · exact .bind (asks _ _) fun _ => .pure

/-- A type as deterministic. -/
private theorem deterministic_scripted : Scripted (i.deterministic ask t) := by
  refine .look fun t _ => .look fun shape _ => ?_
  split
  · exact .pure
  split
  · exact .pure
  refine .look fun byKind _ => ?_
  split
  · exact .pure
  split
  · exact deterministicRecord_scripted asks
  · exact .pure
  · exact .pure

-- ============================================================ every aspect

/-- One level: a question follows a script if the questions about its parts do. -/
theorem assess_scripted (a : Aspect) (t : QualifiedType) : Scripted (i.assess ask a t) := by
  cases a with
  | heapSafe => exact .bind (safe_scripted asks) fun _ => .pure
  | deterministic => exact .bind (deterministic_scripted asks) fun _ => .pure
  | stackOnly => exact .look fun _ _ => .pure
  | nullablePtr => exact nullablePtr_scripted asks
  | nakedStruct => exact nakedStruct_scripted asks
  | deepConst => exact deepConst_scripted asks

omit asks in
/-- Questions follow a script at every depth. -/
theorem judgeWithin_scripted (i : Inspector) (depth : Nat) (a : Aspect) (t : QualifiedType) :
    Scripted (i.judgeWithin depth a t) := by
  induction depth generalizing a t with
  | zero => exact .error
  | succ depth ih => exact assess_scripted ih a t

end Inspector

-- ============================================================ classifications

/-- A classification gives one verdict and has one list of lines, whatever the voice. -/
theorem Ledger.exists_transcript (s : Setting) (a : Aspect) (t : QualifiedType) :
    ∃ transcript : Result (Verdict × List (Location × String)), ∀ voice,
      classify s voice a t = transcript.map fun k => (k.1, (voice.sayAll k.2).said) := by
  obtain ⟨script, same⟩ := Inspector.judgeWithin_scripted ⟨s, false⟩ _ a t [] false
  refine ⟨script.map fun k => (k.answer, k.lines), fun voice => ?_⟩
  show ((Inspector.mk s false).judge a t ⟨[], false, voice⟩ >>= fun end_ =>
    .ok (end_.1, end_.2.voice.said)) = _
  unfold Inspector.judge
  rw [same]
  cases script with
  | error fault => rfl
  | ok k => rfl

end SafeDialect
