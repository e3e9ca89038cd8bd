/-
A good answer comes without a remark.

`Discreet act good` says so of one step: where its answer is good it leaves the voice as it found
it. A remark is only ever made on the way to a bad answer, and a bad answer about a part is not
swallowed: it makes the answer about the whole bad too, or it was asked for quietly. The one place
where a bad answer is followed by another question is a pointer that owns what is not deep const.
There the next question is answered badly, because an owning pointer is a smart pointer.
-/
import SafeDialect.Ledger
import SafeDialect.Proofs.Outcome

namespace SafeDialect

-- ============================================================ steps that refuse

/-- A step that never gives a good answer. -/
def Refuses {α : Type} (act : Inspect α) (good : α → Prop) : Prop :=
  Completes (fun _ => True) act fun a => ¬ good a

namespace Refuses

open Inspect

variable {α β : Type} {good : β → Prop}

/-- A bad answer that is at hand. -/
theorem pure {b : β} (bad : ¬ good b) : Refuses (Pure.pure b) good := Completes.pure bad

/-- Whatever is done before a bad answer. -/
theorem after {act : Inspect α} {f : α → Inspect β} (next : ∀ a, Refuses (f a) good) :
    Refuses (act >>= f) good :=
  Completes.bind (Runs.always act) fun a _ => next a

/-- Neither the provisional answer about a record in progress nor the one that is found out is
good. -/
theorem guarded {act : Inspect β} {aspect : Aspect} {id : RecordId} {provisional : β}
    (bad : ¬ good provisional) (h : Refuses act good) :
    Refuses (guarded aspect id provisional act) good := by
  intro s
  refine .get_bind ?_
  split
  · exact .pure bad
  · exact .set_bind (.bind (h _) fun a s' refused => .modify_bind (.pure refused))

/-- Entering library code makes no answer good. -/
theorem inside {isSystem : Bool} {act : Bool → Inspect β}
    (h : ∀ entered, Refuses (act entered) good) : Refuses (inside isSystem act) good :=
  fun _ => .get_bind (.set_bind (.bind (h _ _) fun _ _ refused => .modify_bind (.pure refused)))

end Refuses

-- ============================================================ steps that are discreet

/-- A step that leaves the voice as it found it if its answer is good. -/
def Discreet {α : Type} (act : Inspect α) (good : α → Prop) : Prop :=
  ∀ s, Runs (fun _ => True) act s fun a s' => good a → s'.voice = s.voice

/-- What never answers well may say whatever it wants. -/
private theorem Refuses.discreet {α : Type} {act : Inspect α} {good : α → Prop}
    (h : Refuses act good) : Discreet act good :=
  fun s => .mono (h s) fun _ _ bad isGood => absurd isGood bad

namespace Discreet

open Inspect

variable {α β : Type} {act : Inspect α} {good : α → Prop} {last : β → Prop}

/-- What is at hand is not talked about. -/
theorem pure {b : β} : Discreet (Pure.pure b) last := fun _ => .pure fun _ => rfl

/-- Good may be taken to mean more. -/
theorem mono (h : Discreet act good) {good' : α → Prop} (stronger : ∀ a, good' a → good a) :
    Discreet act good' :=
  fun s => .mono (h s) fun a _ known isGood => known (stronger a isGood)

/-- After a good answer the next step has to be discreet, after a bad one it has to refuse. -/
theorem bind {f : α → Inspect β} (first : Discreet act good)
    (next : ∀ a, good a → Discreet (f a) last) (bad : ∀ a, ¬ good a → Refuses (f a) last) :
    Discreet (act >>= f) last := by
  intro s
  refine .bind (first s) fun a s' silent => ?_
  by_cases isGood : good a
  · refine .mono (next a isGood s') fun b s'' known isLast => ?_
    rw [known isLast, silent isGood]
  · exact .mono (bad a isGood s') fun b s'' refused isLast => absurd isLast refused

/-- A step that says nothing, before another one. -/
theorem ask {f : α → Inspect β} (first : Discreet act fun _ => True)
    (next : ∀ a, Discreet (f a) last) : Discreet (act >>= f) last :=
  bind first (fun a _ => next a) fun _ absent => absurd trivial absent

/-- Looking something up says nothing. -/
theorem look {x : Result α} {f : α → Inspect β} (next : ∀ a, x = .ok a → Discreet (f a) last) :
    Discreet (liftM x >>= f) last :=
  fun s => .lift_bind (.always x) fun a answer _ => next a answer s

/-- Nor does reading the session. -/
theorem get_bind {f : Session → Inspect β} (next : ∀ s, Discreet (f s) last) :
    Discreet (get >>= f) last :=
  fun s => .get_bind (next s s)

/-- An answer made of another one, and good only if that is. -/
theorem map {g : α → β} (h : Discreet act good) (onlyIf : ∀ a, last (g a) → good a) :
    Discreet (do return g (← act)) last :=
  bind h (fun _ _ => pure) fun a bad => .pure fun isLast => bad (onlyIf a isLast)

/-- Whatever is said before a bad answer. -/
theorem complaint {b : β} (bad : ¬ last b) : Discreet (do let _ ← act; return b) last :=
  Refuses.discreet (.after fun _ => .pure bad)

-- ============================================================ building blocks

/-- What is done quietly says nothing, whatever it is. -/
theorem quietly : Discreet (quietly act) fun _ => True := by
  intro s
  refine .get_bind (.set_bind (.bind (.always act _) fun a s' _ => ?_))
  exact .modify_bind (.pure fun _ => rfl)

/-- A record that is entered is answered for as it is inside, and one in progress says nothing. -/
theorem guarded {aspect : Aspect} {id : RecordId} {provisional : α} (h : Discreet act good) :
    Discreet (guarded aspect id provisional act) good := by
  intro s
  refine .get_bind ?_
  split
  · exact .pure fun _ => rfl
  · refine .set_bind (.bind (h _) fun a s' known => ?_)
    exact .modify_bind (.pure fun isGood => known isGood)

/-- Entering library code and leaving it again says nothing. -/
theorem inside {isSystem : Bool} {act : Bool → Inspect α}
    (h : ∀ entered, Discreet (act entered) good) : Discreet (inside isSystem act) good := by
  intro s
  refine .get_bind (.set_bind (.bind (h _ _) fun a s' known => ?_))
  exact .modify_bind (.pure fun isGood => known isGood)

/-- Two questions, the second only if the answer to the first is good. -/
theorem both {first next : Inspect Bool} (ofFirst : Discreet first (· = true))
    (ofNext : Discreet next (· = true)) :
    Discreet (do if ← first then next else return false) (· = true) := by
  refine bind ofFirst (fun b isGood => ?_) fun b isBad => ?_
  · rw [if_pos isGood]
    exact ofNext
  · rw [if_neg isBad]
    exact .pure nofun

/-- A question, and a complaint if the answer is bad. -/
theorem orComplaint {passes : α → Bool} {complaint : Inspect PUnit}
    (h : Discreet act fun a => passes a = true) :
    Discreet (do
      if passes (← act) then return true
      else
        complaint
        return false) (· = true) := by
  refine bind h (fun a isGood => ?_) fun a isBad => ?_
  · rw [if_pos isGood]
    exact pure
  · rw [if_neg isBad]
    exact .after fun _ => .pure nofun

section Lists

variable {l : List α} {passes : α → Inspect Bool} (each : ∀ a, Discreet (passes a) (· = true))
include each

/-- A list passes in silence if each of its elements does, and stops at the first that does not. -/
theorem allM : Discreet (l.allM passes) (· = true) := by
  induction l with
  | nil => exact pure
  | cons head tail ih =>
    unfold List.allM
    refine bind (each head) (fun b isGood => ?_) fun b isBad => ?_
    · rw [isGood]
      exact ih
    · rw [Bool.not_eq_true] at isBad
      rw [isBad]
      exact .pure Bool.false_ne_true

/-- Members are asked about in turn. The remark is made on one that is bad, and then the record
is. -/
theorem allMembers {entered : Bool} {complaint : α → Location × String} :
    Discreet (allMembers entered passes complaint l) (· = true) := by
  induction l with
  | nil => exact pure
  | cons head tail ih =>
    unfold Inspect.allMembers
    refine bind (each head) (fun b isGood => ?_) fun b isBad => ?_
    · rw [if_pos isGood]
      exact ih
    · rw [if_neg isBad]
      exact .after fun _ => .pure Bool.false_ne_true

end Lists

end Discreet

-- ============================================================ the classifier

/-- An owning pointer is a smart pointer, since it is one of the names of these. -/
private theorem Setting.isSafePtr_of_isOwningPtr {s : Setting} {t : QualifiedType}
    (owning : s.isOwningPtr t = .ok true) : s.isSafePtr t = .ok true := by
  obtain ⟨name, named, isOwning⟩ := bind_eq_ok.mp owning
  unfold isSafePtr
  rw [named, ok_bind, Vocabulary.isSafePtr, Except.ok.inj isOwning]
  rfl

namespace Inspector

variable {i : Inspector} {ask : Ask} {t arg : QualifiedType} {n : Nat} {id defined : RecordId}

/-- A union of primitives is accepted in silence. -/
theorem unionRecord_discreet : Discreet (i.unionRecord id) (· = true) := by
  refine .look fun defined? _ => ?_
  cases defined? with
  | none => exact .pure
  | some defined =>
    refine .look fun r _ => .allM fun f => .look fun shape _ => ?_
    split
    · exact .complaint nofun
    · exact .pure

/-- An argument that is there is not talked about. -/
private theorem requiredArg_discreet :
    Discreet (i.requiredArg t n) fun arg? => arg?.isSome = true := by
  refine .look fun arg? _ => ?_
  cases arg? with
  | some arg => exact .pure
  | none => exact .complaint nofun

/-- A missing argument has been remarked on, and makes the answer bad. -/
theorem withArg_discreet {rest : Option QualifiedType → Inspect Bool}
    (each : ∀ arg, Discreet (rest (some arg)) (· = true)) (missing : rest none = return false) :
    Discreet (i.requiredArg t n >>= rest) (· = true) := by
  refine .bind requiredArg_discreet (fun arg? present => ?_) fun arg? absent => ?_
  · obtain ⟨arg, rfl⟩ := Option.isSome_iff_exists.mp present
    exact each arg
  · rw [Option.not_isSome_iff_eq_none] at absent
    subst absent
    rw [missing]
    exact .pure nofun

/-- Functions that are all free of side effects are not talked about. -/
private theorem allPure_discreet {message : String} {operators : List FunctionId} :
    Discreet (i.allPure message operators) (· = true) := by
  induction operators with
  | nil => exact .pure
  | cons op rest ih =>
    refine .look fun isPure _ => ?_
    cases isPure with
    | true => exact ih
    | false => exact Refuses.discreet (.after fun _ => .after fun _ => .pure nofun)

private theorem argIsPure_discreet : Discreet (i.argIsPure t n arg) (· = true) := by
  refine .look fun spelling _ => .look fun defined? _ => ?_
  cases defined? with
  | none => exact .complaint nofun
  | some id =>
    refine .look fun operators _ => ?_
    split
    · exact .complaint nofun
    · exact allPure_discreet

/-- A container that is not sound has been remarked on, and the answer is about it alone. -/
theorem container_discreet {verdict : Inspect Verdict} {next : Inspect Bool}
    (first : Discreet verdict fun v => v.applies = true → v.sound = true)
    (otherwise : Discreet next (· = true)) :
    Discreet (do
      let v ← verdict
      if v.applies then return v.sound else next) (· = true) := by
  refine .bind first (fun v _ => ?_) fun v bad => ?_
  · split
    · exact .pure
    · exact otherwise
  · rw [Classical.not_imp] at bad
    rw [if_pos bad.1]
    exact .pure bad.2

/-- A method that suits deep constness is not talked about. -/
private theorem deepConstMethod_discreet {f : FunctionId} :
    Discreet (i.deepConstMethod f) (· = true) := by
  refine .look fun f _ => ?_
  split
  · exact .complaint nofun
  · exact .pure

private theorem nakedMethod_discreet {r : RecordDecl} {f : FunctionId} :
    Discreet (i.nakedMethod r f) (· = true) := by
  refine .look fun f _ => ?_
  split
  · exact .pure
  · exact .complaint nofun

/-- Whatever is asked quietly first, a field is remarked on only if the answer is bad. -/
theorem nakedField_discreet {f : Field} : Discreet (i.nakedField ask f) (· = true) := by
  have reasons (a : Aspect) (t : QualifiedType) (location : Location) (message : String) :
      Discreet (do
        let _ ← ask a t
        Inspect.remark location message
        return false) (· = true) :=
    Refuses.discreet (.after fun _ => .after fun _ => .pure nofun)
  refine .look fun t _ => .ask .quietly fun safe => ?_
  split
  · exact .pure
  refine .ask .quietly fun nullable => ?_
  split
  · split
    · exact .pure
    · exact reasons _ _ _ _
  refine .ask .quietly fun naked => ?_
  split
  · split
    · exact .pure
    · exact reasons _ _ _ _
  · exact reasons _ _ _ _

/-- A naked struct is accepted in silence. A field is asked about quietly first, and aloud only if
it is bad. -/
theorem nakedRecord_discreet : Discreet (i.nakedRecord ask id) (· = true) := by
  refine .look fun defined? _ => ?_
  cases defined? with
  | none => exact .pure
  | some defined =>
    refine .look fun r _ => ?_
    split
    · exact .complaint nofun
    · exact .both (.allM fun _ => nakedField_discreet) (.allM fun _ => nakedMethod_discreet)

private theorem nakedStruct_discreet : Discreet (i.nakedStruct ask t) fun v => v.sound = true := by
  refine .look fun defined? _ => ?_
  cases defined? with
  | none => exact .pure
  | some id =>
    refine .look fun r _ => ?_
    split
    · exact .map nakedRecord_discreet fun _ sound => sound
    · exact .pure

-- ============================================================ what asks about parts

variable (asks : ∀ a t, Discreet (ask a t) fun v => v.sound = true)
include asks

/-- A verdict that is good is sound, so it comes without a remark. -/
theorem isGood_discreet (a : Aspect) (t : QualifiedType) :
    Discreet (ask a t) fun v => v.isGood = true :=
  .mono (asks a t) fun _ isGood => (Bool.and_eq_true_iff.mp isGood).2

private theorem nullablePtr_discreet : Discreet (i.nullablePtr ask t) fun v => v.sound = true := by
  refine .look fun t _ => .look fun isNullable _ => ?_
  split
  · refine .look fun pointee? _ => ?_
    cases pointee? with
    | none => exact .pure
    | some pointee => exact .map (asks .heapSafe pointee) fun _ sound => sound
  · exact .pure

-- ============================================================ containers

/-- A bad argument is complained about after the answer to the question, which was bad too. -/
private theorem argIsSafe_discreet : Discreet (i.argIsSafe ask t n arg) (· = true) :=
  .orComplaint (asks .heapSafe arg)

private theorem argIsDeepConst_discreet : Discreet (i.argIsDeepConst ask t n arg) (· = true) :=
  .orComplaint (isGood_discreet asks .deepConst arg)

private theorem safeArg_discreet : Discreet (i.safeArg ask t n) (· = true) :=
  withArg_discreet (fun _ => argIsSafe_discreet asks) rfl

private theorem safeDeepConstArg_discreet : Discreet (i.safeDeepConstArg ask t n) (· = true) :=
  withArg_discreet (fun _ => .both (argIsSafe_discreet asks) (argIsDeepConst_discreet asks)) rfl

/-- An argument passes in silence if it passes each of the checks on it. -/
private theorem pureArg_discreet : Discreet (i.pureArg ask t n) (· = true) :=
  withArg_discreet (fun _ => .both (argIsSafe_discreet asks) <|
    .both (argIsDeepConst_discreet asks) argIsPure_discreet) rfl

/-- What is no vector is not remarked on. -/
theorem vector_discreet :
    Discreet (i.vector ask t) fun v => v.applies = true → v.sound = true := by
  refine .look fun name _ => ?_
  split
  · exact .map (safeArg_discreet asks) fun _ sound => sound rfl
  · exact .pure

/-- A hash map is not talked about if all four of its arguments pass. -/
private theorem hashmapArgs_discreet : Discreet (i.hashmapArgs ask t) (· = true) :=
  .both (safeDeepConstArg_discreet asks) <| .both (safeArg_discreet asks) <|
    .both (pureArg_discreet asks) (pureArg_discreet asks)

/-- The answer that a type is no hash map is good as well. -/
theorem hashmap_discreet :
    Discreet (i.hashmap ask t) fun v => v.applies = true → v.sound = true := by
  unfold hashmap
  split
  · exact .pure
  refine .look fun name _ => ?_
  split
  · exact .map (hashmapArgs_discreet asks) fun _ sound => sound rfl
  · exact .pure

-- ============================================================ deep const types

/-- What a pointer owns may be remarked on although nothing good has been found, but only if the
pointer is an owning one. -/
theorem deepConstOwner_discreet :
    Discreet (i.deepConstOwner ask t) fun isOwner =>
      isOwner = true ∨ i.setting.isOwningPtr t ≠ .ok true := by
  refine .look fun isOwningPtr known => ?_
  cases isOwningPtr with
  | false => exact .pure
  | true =>
    refine .look fun arg? _ => ?_
    cases arg? with
    | none => exact .pure
    | some arg =>
      refine .map (isGood_discreet asks .deepConst arg) fun v good => ?_
      rcases good with owns | other
      · exact (Bool.and_eq_true_iff.mp owns).1
      · exact absurd known other

/-- Members that are deep const are not talked about. -/
private theorem deepConstMembers_discreet {entered : Bool} {r : RecordDecl} :
    Discreet (i.deepConstMembers ask entered r) fun v => v.sound = true := by
  have member (t : QualifiedType) :
      Discreet (do return (← ask .deepConst t).isGood) (· = true) :=
    .map (isGood_discreet asks .deepConst t) fun _ good => good
  unfold deepConstMembers
  split
  · exact .complaint nofun
  refine .bind (.allMembers fun _ => member _) (fun fields good => ?_) fun fields bad => ?_
  · subst good
    refine .bind (.allM fun _ => deepConstMethod_discreet) (fun methods good => ?_)
      fun methods bad => ?_
    · subst good
      exact .map (.allMembers fun _ => member _) fun _ sound => sound
    · rw [Bool.not_eq_true] at bad
      subst bad
      exact .pure nofun
  · rw [Bool.not_eq_true] at bad
    subst bad
    exact .pure nofun

private theorem argOfRecord_discreet {location : Location} {arg : TemplateArg} :
    Discreet (i.argOfRecord ask location n arg) (· = true) := by
  have complaint (t : QualifiedType) (wrong : String → String) :
      Refuses (do
        let spelling ← i.setting.unit.spelling t
        Inspect.remark location (wrong spelling)
        return false) (· = true) :=
    .after fun _ => .after fun _ => .pure nofun
  unfold argOfRecord
  split
  · refine .look fun t _ => .bind (asks .heapSafe t) (fun v sound => ?_) fun v unsound => ?_
    · rw [sound]
      refine .bind (isGood_discreet asks .deepConst t) (fun v good => ?_) fun v bad => ?_
      · rw [good]
        exact .pure
      · rw [Bool.not_eq_true] at bad
        rw [bad]
        exact complaint t _
    · rw [Bool.not_eq_true] at unsound
      rw [unsound]
      exact complaint t _
  · exact .pure
  · exact .pure

/-- Arguments that are deep const are not talked about. -/
private theorem argsDeepConst_discreet : Discreet (i.argsDeepConst ask id) (· = true) := by
  refine .look fun r _ => ?_
  split
  · exact .pure
  · exact .allM fun _ => argOfRecord_discreet asks

/-- A record that is deep const is accepted in silence, be it by its arguments or by its members. -/
theorem deepConstRecord_discreet : Discreet (i.deepConstRecord ask id) fun v => v.sound = true := by
  refine .look fun defined? _ => ?_
  cases defined? with
  | none => exact .pure
  | some defined =>
    refine .guarded (.look fun r _ => .look fun isSystem _ => .inside fun entered => ?_)
    refine .get_bind fun s => ?_
    split
    · split
      · exact .pure
      split
      · exact .map (argsDeepConst_discreet asks) fun _ sound => sound
      · exact .pure
    · split
      · exact deepConstMembers_discreet asks
      · exact .pure

/-- The owner of what is not deep const has complained when the next question is asked. That
question is then answered badly, so that the complaint stands. -/
private theorem deepConst_discreet : Discreet (i.deepConst ask t) fun v => v.sound = true := by
  refine .look fun t _ => .look fun shape _ => ?_
  split
  · exact .pure
  split
  · exact .pure
  refine .bind (deepConstOwner_discreet asks) (fun isOwner _ => ?_) fun isOwner remarked => ?_
  · split
    · exact .pure
    refine .look fun isSafePtr _ => ?_
    split
    · exact .pure
    refine .look fun isNullable _ => ?_
    split
    · exact .pure
    split
    · exact deepConstRecord_discreet asks
    · exact .pure
    · exact .pure
  · -- an owning pointer is a smart pointer, and no smart pointer gets any further
    rw [not_or, Bool.not_eq_true, not_not] at remarked
    obtain ⟨rfl, owning⟩ := remarked
    rw [if_neg Bool.false_ne_true, Setting.isSafePtr_of_isOwningPtr owning, Runs.lift_ok_bind]
    exact .pure nofun

-- ============================================================ safety

/-- A safe record is accepted in silence. -/
theorem safeRecord_discreet : Discreet (i.safeRecord ask id) (· = true) := by
  have member (t : QualifiedType) : Discreet (do return (← ask .heapSafe t).sound) (· = true) :=
    .map (asks .heapSafe t) fun _ sound => sound
  refine .look fun defined? _ => ?_
  cases defined? with
  | none => exact .pure
  | some defined =>
    refine .guarded (.look fun name _ => ?_)
    split
    · exact .pure
    refine .look fun r _ => .look fun isSystem _ => ?_
    split
    · exact .complaint nofun
    refine .inside fun entered => .look fun r _ => ?_
    split
    · exact unionRecord_discreet
    · exact .both (.allMembers fun _ => member _) (.allMembers fun _ => member _)

private theorem safePointee_discreet : Discreet (i.safePointee ask t) (· = true) := by
  refine .look fun pointee? _ => ?_
  cases pointee? with
  | none => exact .pure
  | some pointee => exact .map (asks .heapSafe pointee) fun _ sound => sound

/-- A safe type is accepted in silence. -/
private theorem safe_discreet : Discreet (i.safe ask t) (· = true) := by
  refine .look fun t _ => .look fun stackOnly _ => ?_
  split
  · exact .pure
  refine .look fun shape _ => ?_
  split
  · exact .pure
  refine .look fun isAwaitable _ => ?_
  split
  · exact .pure
  refine container_discreet (vector_discreet asks) ?_
  refine container_discreet (hashmap_discreet asks) (.look fun isSafePtr _ => ?_)
  split
  · exact safePointee_discreet asks
  split
  · exact safeRecord_discreet asks
  · exact .pure
  · exact .pure

-- ============================================================ determinism

/-- A deterministic record is accepted in silence. -/
theorem deterministicRecord_discreet : Discreet (i.deterministicRecord ask id) (· = true) := by
  have member (t : QualifiedType) :
      Discreet (do return (← ask .deterministic t).sound) (· = true) :=
    .map (asks .deterministic t) fun _ sound => sound
  refine .look fun defined? _ => ?_
  cases defined? with
  | none => exact .pure
  | some defined =>
    refine .guarded (.look fun name _ => ?_)
    split
    · exact .pure
    refine .look fun r _ => .look fun isSystem _ => .inside fun entered => ?_
    split
    · exact .pure
    refine .both (.allMembers fun f => ?_) (.allMembers fun _ => member _)
    split
    · exact .pure
    · exact member _

/-- A deterministic type is accepted in silence. -/
private theorem deterministic_discreet : Discreet (i.deterministic ask t) (· = true) := by
  refine .look fun t _ => .look fun shape _ => ?_
  split
  · exact .pure
  split
  · exact .pure
  refine .look fun byKind _ => ?_
  split
  · exact .pure
  split
  · exact deterministicRecord_discreet asks
  · exact .pure
  · exact .pure

-- ============================================================ every aspect

/-- If sound answers about parts come without a remark, so do those about the whole. -/
theorem assess_discreet (a : Aspect) (t : QualifiedType) :
    Discreet (i.assess ask a t) fun v => v.sound = true := by
  cases a with
  | heapSafe => exact .map (safe_discreet asks) fun _ sound => sound
  | deterministic => exact .map (deterministic_discreet asks) fun _ sound => sound
  | stackOnly => exact .look fun _ _ => .pure
  | nullablePtr => exact nullablePtr_discreet asks
  | nakedStruct => exact nakedStruct_discreet
  | deepConst => exact deepConst_discreet asks

omit asks in
/-- A good verdict comes in silence at every depth. The step lemma takes the questions about parts
as discreet, and the induction on the depth provides that. -/
theorem judgeWithin_discreet (i : Inspector) (depth : Nat) (a : Aspect) (t : QualifiedType) :
    Discreet (i.judgeWithin depth a t) fun v => v.sound = true := by
  induction depth generalizing a t with
  | zero => exact fun _ => trivial
  | succ depth ih => exact assess_discreet ih a t

end Inspector

end SafeDialect
