/-
Which arguments an object may keep.

An argument that is bound to a parameter tagged so lives as long as the object that the method is
called on. Where that object is not part of `this`, the rule accepts functions, and lambdas whose
captures may all be kept; a variable that was initialized with a lambda stands for it. Temporaries
and implicit casts around an argument are looked through, and so are constructions: a construction
stands for its first argument, however many it has. So it is accepted on the strength of that one,
and the others may be references to locals.

The arguments that are kept are listed here without a ledger, in the order in which the rule comes
across them, and what it reports is cut into one part for each.
-/
import SafeDialect.Proofs.Rules.Checker
import SafeDialect.Proofs.Rules.Variables

namespace SafeDialect

variable {s : Setting} {e arg : Expr} {ofThis : Bool} {owner : Option RecordId} {l : Lambda}

-- ============================================================ expressions under wrappers

namespace Expr

/-- An expression is another one under temporaries and implicit casts. -/
inductive Wraps : Expr → Expr → Prop where
  | refl (e : Expr) : Wraps e e
  | bindTemporary {location : Location} {type : QualifiedType} {inner e : Expr} :
      Wraps inner e → Wraps (.mk location type (.bindTemporary inner)) e
  | materializeTemporary {location : Location} {type : QualifiedType} {inner e : Expr} :
      Wraps inner e → Wraps (.mk location type (.materializeTemporary inner)) e
  | withCleanups {location : Location} {type : QualifiedType} {inner e : Expr} :
      Wraps inner e → Wraps (.mk location type (.withCleanups inner)) e
  | implicitCast {location : Location} {type : QualifiedType} {operand e : Expr} :
      Wraps operand e → Wraps (.mk location type (.cast .implicit operand)) e

private theorem Wraps.withoutTemporaries_eq (wraps : arg.Wraps e) :
    arg.withoutTemporaries = e.withoutTemporaries := by
  induction wraps with
  | refl e => rfl
  | bindTemporary _ ih | materializeTemporary _ ih | withCleanups _ ih | implicitCast _ ih =>
    rw [withoutTemporaries, Node.withoutTemporaries, ih]

variable {location : Location} {type : QualifiedType} {constructor : Option FunctionId}
  {first : Expr} {args : List Expr}

/-- A construction stands for its first argument. -/
theorem Wraps.construct_eq
    (wraps : arg.Wraps (.mk location type (.construct constructor (first :: args)))) :
    arg.withoutTemporaries = first.withoutTemporaries := by
  rw [wraps.withoutTemporaries_eq, withoutTemporaries, Node.withoutTemporaries]

/-- Some wrappers hide a construction, and the others do not make a function of it. -/
theorem Wraps.unwrapped_construct
    (wraps : arg.Wraps (.mk location type (.construct constructor args))) :
    (∃ inner, arg.unwrapped.node = .bindTemporary inner)
      ∨ arg.unwrapped.node = .construct constructor args := by
  generalize whole : Expr.mk location type (.construct constructor args) = e at wraps
  induction wraps with
  | refl e =>
    subst whole
    exact .inr rfl
  | @bindTemporary _ _ inner => exact .inl ⟨inner, rfl⟩
  | materializeTemporary _ ih | withCleanups _ ih | implicitCast _ ih =>
    rw [unwrapped, Node.unwrapped]
    exact ih whole

private theorem Wraps.not_isFunctionRef
    (wraps : arg.Wraps (.mk location type (.construct constructor args))) :
    arg.isFunctionRef = false := by
  unfold isFunctionRef
  rcases wraps.unwrapped_construct with ⟨inner, same⟩ | same
  · rw [same]
    rfl
  · rw [same]
    rfl

end Expr

-- ============================================================ what may be kept

namespace Setting

/-- A capture that may be kept: the object itself by a part of it or by a node, a copy of the
object, and a copy of a variable that is safe or lives forever. -/
def MayKeep (s : Setting) (ofThis : Bool) (owner : Option RecordId) : CaptureKind → Prop
  | .thisPointer => ofThis = true ∨ ∃ id, owner = some id ∧ s.derivesFromNode id = .ok true
  | .thisCopy => True
  | .byCopy id => ∃ v, s.unit.variableDecl id = .ok v
      ∧ (s.IsSound .heapSafe v.type ∨ v.hasGlobalStorage = true)
  | .byReference _ | .array => False

/-- An expression is a lambda, or a variable that was initialized with one. -/
inductive StandsFor (s : Setting) (e : Expr) (l : Lambda) : Prop where
  | itself (same : e.withoutTemporaries.node = .lambda l)
  | byInitializer {id : VariableId} {v : VariableDecl} {init : Expr}
      (refers : e.withoutTemporaries.node = .declRef (.variableRef id))
      (found : s.unit.variableDecl id = .ok v) (initialized : v.init = some init)
      (same : init.withoutTemporaries.node = .lambda l)

/-- An expression stands for one lambda. -/
theorem StandsFor.unique {l' : Lambda} (h : s.StandsFor e l) (h' : s.StandsFor e l') : l = l' := by
  cases h with
  | itself same =>
    cases h' with
    | itself same' => exact Node.lambda.inj (same.symm.trans same')
    | byInitializer refers' => cases same.symm.trans refers'
  | byInitializer refers found initialized same =>
    cases h' with
    | itself same' => cases refers.symm.trans same'
    | byInitializer refers' found' initialized' same' =>
      cases refers.symm.trans refers'
      cases found.symm.trans found'
      cases initialized.symm.trans initialized'
      exact Node.lambda.inj (same.symm.trans same')

/-- An expression stands for a lambda whose captures may all be kept. -/
def KeepsLambda (s : Setting) (ofThis : Bool) (owner : Option RecordId) (e : Expr) : Prop :=
  ∃ l, s.StandsFor e l ∧ ∀ c ∈ l.captures, s.MayKeep ofThis owner c.kind

private theorem StandsFor.keepsLambda_iff (stands : s.StandsFor e l) :
    s.KeepsLambda ofThis owner e ↔ ∀ c ∈ l.captures, s.MayKeep ofThis owner c.kind := by
  constructor
  · rintro ⟨l', stands', all⟩
    rw [stands.unique stands']
    exact all
  · exact fun all => ⟨l, stands, all⟩

/-- What an expression stands for depends only on what is left of it without temporaries. -/
theorem standsFor_congr {e' : Expr} (same : e.withoutTemporaries = e'.withoutTemporaries) :
    s.StandsFor e l ↔ s.StandsFor e' l := by
  constructor
  · intro stands
    cases stands with
    | itself is => exact .itself (same ▸ is)
    | byInitializer refers found initialized is =>
      exact .byInitializer (same ▸ refers) found initialized is
  · intro stands
    cases stands with
    | itself is => exact .itself (same ▸ is)
    | byInitializer refers found initialized is =>
      exact .byInitializer (same ▸ refers) found initialized is

private theorem keepsLambda_congr {e' : Expr}
    (same : e.withoutTemporaries = e'.withoutTemporaries) :
    s.KeepsLambda ofThis owner e ↔ s.KeepsLambda ofThis owner e' :=
  exists_congr fun _ => and_congr_left' (standsFor_congr same)

-- ============================================================ one argument

/-- A message about a scope that may not be extended. -/
def IsExtensionMessage (message : String) : Prop := "(S5.7) ".toList <+: message.toList

/-- A complaint if something may not be kept, and no remark so far. -/
structure ComplaintUnless (accepted : Prop) (complaint? : Option String) (said : List Remark) :
    Prop where
  silent : said = []
  absent : complaint? = none ↔ accepted
  worded : ∀ complaint, complaint? = some complaint → IsExtensionMessage complaint

private theorem ComplaintUnless.ofTest {accepted : Prop} (test : Bool) {complaint : String}
    (same : test = true ↔ accepted) (worded : IsExtensionMessage complaint) :
    ComplaintUnless accepted (if test then none else some complaint) [] := by
  cases test with
  | true => exact ⟨rfl, iff_of_true rfl (same.mp rfl), nofun⟩
  | false =>
    refine ⟨rfl, iff_of_false nofun (mt same.mpr Bool.false_ne_true), ?_⟩
    rintro _ ⟨⟩
    exact worded

/-- There is a complaint about a capture unless it may be kept. -/
private theorem captureComplaint_tells {kind : CaptureKind} :
    Reports s (s.captureComplaint ofThis owner kind)
      (ComplaintUnless (s.MayKeep ofThis owner kind)) := by
  have never {complaint : String} (worded : IsExtensionMessage complaint) :
      ComplaintUnless False (some complaint) [] := .ofTest false (by simp) worded
  cases kind with
  | thisPointer =>
    have worded : IsExtensionMessage "(S5.7) capture of 'this' unsafe to extend scope" := ⟨_, rfl⟩
    cases ofThis with
    | true =>
      cases owner with
      | none => exact .pure (.ofTest true (by simp [MayKeep]) worded)
      | some id => exact .pure (.ofTest true (by simp [MayKeep]) worded)
    | false =>
      cases owner with
      | none => exact .pure (.ofTest false (by simp [MayKeep]) worded)
      | some id =>
        refine .look fun isNode known => .pure (.ofTest isNode ?_ worded)
        simp [MayKeep, known]
  | thisCopy => exact .pure ⟨rfl, iff_of_true rfl trivial, nofun⟩
  | byCopy id =>
    refine .look fun v found => .ask .verdict fun safe judges => ?_
    have keep : s.MayKeep ofThis owner (.byCopy id) ↔
        safe.sound = true ∨ v.hasGlobalStorage = true := by
      rw [← judges.isSound_iff]
      simp [MayKeep, found]
    rw [keep]
    split
    · next sound => exact .pure ⟨rfl, iff_of_true rfl (.inl sound), nofun⟩
    · next unsound => exact .pure (.ofTest _ (by simp [unsound]) ⟨_, rfl⟩)
  | byReference | array => exact .pure (never ⟨_, rfl⟩)

/-- One error about a capture that may not be kept, if there is one. -/
theorem checkCaptures_tells {captures : List Capture} :
    Reports s (s.checkCaptures ofThis owner captures) fun fine said =>
      (fine = true ∧ said = [] ∧ ∀ c ∈ captures, s.MayKeep ofThis owner c.kind)
      ∨ (fine = false ∧ (¬ ∀ c ∈ captures, s.MayKeep ofThis owner c.kind)
        ∧ ∃ c ∈ captures, ∃ message, said = [⟨c.location, message, .error⟩]
          ∧ IsExtensionMessage message) := by
  induction captures with
  | nil => exact .pure (.inl ⟨rfl, rfl, List.forall_mem_nil _⟩)
  | cons capture rest ih =>
    unfold checkCaptures
    refine .bind captureComplaint_tells fun complaint? said told => ?_
    obtain ⟨rfl, absent, worded⟩ := told
    cases complaint? with
    | some complaint =>
      refine .bind .error fun _ said same => .pure (.inr ⟨rfl, fun all => ?_, ?_⟩)
      · exact Option.some_ne_none _ (absent.mpr (all capture List.mem_cons_self))
      · subst same
        exact ⟨capture, List.mem_cons_self, complaint, rfl, worded complaint rfl⟩
    | none =>
      rw [List.forall_mem_cons, and_iff_right (absent.mp rfl)]
      refine .mono ih fun fine said told => ?_
      rcases told with all | ⟨bad, unkept, c, mem, one⟩
      · exact .inl all
      · exact .inr ⟨bad, unkept, c, List.mem_cons_of_mem _ mem, one⟩

/-- What the rule says about an argument: nothing if it is accepted. Otherwise there is one error,
at the argument or at a capture of the lambda that it stands for, and then notes. -/
structure ExtensionUnless (s : Setting) (arg : Expr) (accepted : Prop) (said : List Remark) :
    Prop where
  silent : accepted → said = []
  blamed : ¬ accepted → ∃ e notes, said = e :: notes ∧ e.severity = .error
    ∧ IsExtensionMessage e.message
    ∧ (e.location = arg.location
      ∨ ∃ l, s.StandsFor arg l ∧ ∃ c ∈ l.captures, e.location = c.location)
    ∧ ∀ r ∈ notes, r.severity = .note

/-- The captures of the lambda that an argument stands for, and perhaps notes if one of them may not
be kept. -/
theorem checkLambda_tells (stands : s.StandsFor arg l) {rest : Bool → Check Bool}
    (fine : rest true = return true)
    (notes : Reports s (rest false) fun isLambda said =>
      isLambda = true ∧ ∀ r ∈ said, r.severity = .note) :
    Reports s (s.checkCaptures ofThis owner l.captures >>= rest) fun isLambda said =>
      isLambda = true ∧ s.ExtensionUnless arg (s.KeepsLambda ofThis owner arg) said := by
  rw [stands.keepsLambda_iff]
  refine .bind checkCaptures_tells fun passes said told => ?_
  rcases told with ⟨rfl, rfl, all⟩ | ⟨rfl, bad, c, mem, message, rfl, worded⟩
  · rw [fine]
    exact .pure ⟨rfl, fun _ => rfl, absurd all⟩
  · refine .mono notes fun isLambda said ⟨is, areNotes⟩ => ⟨is, fun all => absurd all bad, ?_⟩
    exact fun _ => ⟨_, said, rfl, rfl, worded, .inr ⟨l, stands, c, mem, rfl⟩, areNotes⟩

private theorem checkAsLambda_tells :
    Reports s (s.checkAsLambda ofThis owner arg) fun isLambda said =>
      (isLambda = true ∧ s.ExtensionUnless arg (s.KeepsLambda ofThis owner arg) said)
      ∨ (isLambda = false ∧ said = [] ∧ ∀ l, ¬ s.StandsFor arg l) := by
  unfold checkAsLambda
  split
  · next l same =>
    refine .mono (checkLambda_tells (.itself same) rfl ?_) fun _ _ => .inl
    exact .pure ⟨rfl, nofun⟩
  · next id refers =>
    refine .look fun v found => ?_
    split
    · next noLambda =>
      refine .pure (.inr ⟨rfl, rfl, fun l stands => ?_⟩)
      cases stands with
      | itself same => cases same.symm.trans refers
      | byInitializer refers' found' initialized same =>
        cases refers.symm.trans refers'
        cases found.symm.trans found'
        rw [initialized, Option.bind_some, same] at noLambda
        cases noLambda
    · next l known =>
      obtain ⟨init, initialized, isLambda⟩ := Option.bind_eq_some_iff.mp known
      have stands : s.StandsFor arg l :=
        .byInitializer refers found initialized (Node.eq_of_lambda? isLambda)
      refine .mono (checkLambda_tells stands rfl ?_) fun _ _ => .inl
      refine .bind .reportAll fun _ said same => .pure ⟨rfl, ?_⟩
      subst same
      simp
  · next noLambda noVariable =>
    refine .pure (.inr ⟨rfl, rfl, fun l stands => ?_⟩)
    cases stands with
    | itself same => exact noLambda l same
    | byInitializer refers => exact noVariable _ refers

/-- An argument that is kept outside of `this` is a function, or stands for a lambda whose captures
may be kept. -/
theorem checkKeptArg_tells :
    Reports s (s.checkKeptArg ofThis owner arg) fun _ said => ofThis = false →
      s.ExtensionUnless arg (arg.isFunctionRef = true ∨ s.KeepsLambda false owner arg) said := by
  unfold checkKeptArg
  split
  · next isFunction => exact .pure fun _ => ⟨fun _ => rfl, fun bad => absurd (.inl isFunction) bad⟩
  next noFunction =>
  refine .bind checkAsLambda_tells fun isLambda said told => ?_
  rcases told with ⟨rfl, told⟩ | ⟨rfl, rfl, noLambda⟩
  · refine .pure fun outside => ?_
    subst outside
    rw [List.append_nil, or_iff_right noFunction]
    exact told
  · have refused : ¬ (arg.isFunctionRef = true ∨ s.KeepsLambda false owner arg) := by
      rintro (isFunction | ⟨l, stands, -⟩)
      · exact noFunction isFunction
      · exact noLambda l stands
    cases ofThis with
    -- what `this` keeps may flow there, and nothing is said about it here
    | true =>
      refine .bind .speak fun lives said _ => ?_
      dsimp only
      split
      · exact .pure nofun
      · exact .mono .error fun _ _ _ => nofun
    | false =>
      have worded : IsExtensionMessage "(S5.7) argument not safe to extend scope to 'this'" :=
        ⟨_, rfl⟩
      refine .mono .error fun _ said same _ => ⟨fun accepted => absurd accepted refused, ?_⟩
      subst same
      exact fun _ => ⟨_, [], rfl, rfl, worded, .inl rfl, nofun⟩

end Setting

-- ============================================================ every argument

/-- An argument that an object keeps. -/
structure KeptArg where
  /-- The object is part of `this`. -/
  ofThis : Bool
  /-- The record of the method that the call stands in. -/
  owner : Option RecordId
  arg : Expr

namespace Setting

/-- The arguments that are kept, among those that are bound to parameters. -/
def keptAmong (s : Setting) (ofThis : Bool) (owner : Option RecordId) :
    List (VariableId × Expr) → Result (List KeptArg)
  | [] => return []
  | (param, arg) :: rest => do
    let v ← s.unit.variableDecl param
    let kept ← s.keptAmong ofThis owner rest
    return if v.has .mayExtendToThis then ⟨ofThis, owner, arg⟩ :: kept else kept

/-- The kept arguments of a method call with a known callee. -/
def keptInCall (s : Setting) (owner : Option RecordId) (e : Expr) : Result (List KeptArg) := do
  match e.node with
  | .memberCall (some callee) base isArrow args =>
    let f ← s.unit.function callee
    s.keptAmong (base.isPartOfThis isArrow) owner (f.params.zip args)
  | _ => return []

/-- The kept arguments of the calls in a body. -/
def keptInFunction (s : Setting) (f : FunctionId) : Result (List KeptArg) := do
  let decl ← s.unit.function f
  return (← (← s.unit.bodyNodes f).mapM (s.keptInCall decl.parent)).flatten

/-- The kept arguments of all calls in user code. -/
def keptArgs (s : Setting) : Result (List KeptArg) := do
  return (← (← s.userFunctions).mapM s.keptInFunction).flatten

/-- What the rule says about a kept argument. -/
def SaidOn (s : Setting) (k : KeptArg) (said : List Remark) : Prop :=
  k.ofThis = false →
    s.ExtensionUnless k.arg (k.arg.isFunctionRef = true ∨ s.KeepsLambda false k.owner k.arg) said

/-- What is said is said about the arguments of a list, one part about each. -/
def Accounts (s : Setting) (listed : Result (List KeptArg)) (said : List Remark) : Prop :=
  ∃ kept parts, listed = .ok kept ∧ said = parts.flatten ∧ List.Forall₂ s.SaidOn kept parts

/-- Accounts of several lists of arguments make one of all. -/
theorem Accounts.flatten {α : Type} {f : α → Result (List KeptArg)} {l : List α}
    {saids : List (List Remark)} (each : List.Forall₂ (fun a => s.Accounts (f a)) l saids) :
    s.Accounts (do return (← l.mapM f).flatten) saids.flatten := by
  induction each with
  | nil => exact ⟨[], [], rfl, rfl, .nil⟩
  | cons head _ ih =>
    obtain ⟨kept, parts, listed, rfl, all⟩ := head
    obtain ⟨kept', parts', listed', same, all'⟩ := ih
    obtain ⟨lists, mapped, isFlat⟩ := bind_eq_ok.mp listed'
    refine ⟨kept ++ kept', parts ++ parts', ?_, ?_, List.rel_append all all'⟩
    · rw [List.mapM_cons, listed, ok_bind, mapped, ← Except.ok.inj isFlat]
      rfl
    · rw [List.flatten_cons, same, List.flatten_append]

private theorem checkKeptArgs_accounts {pairs : List (VariableId × Expr)} :
    Reports s (s.checkKeptArgs ofThis owner pairs) fun _ =>
      s.Accounts (s.keptAmong ofThis owner pairs) := by
  induction pairs with
  | nil => exact .pure ⟨[], [], rfl, rfl, .nil⟩
  | cons pair rest ih =>
    obtain ⟨param, arg⟩ := pair
    unfold checkKeptArgs keptAmong
    refine .look fun v found => ?_
    rw [found, ok_bind]
    split
    · next tagged =>
      refine .bind checkKeptArg_tells fun _ said told => .mono ih fun _ more accounts => ?_
      obtain ⟨kept, parts, listed, rfl, all⟩ := accounts
      refine ⟨⟨ofThis, owner, arg⟩ :: kept, said :: parts, ?_, rfl, .cons told all⟩
      rw [listed]
      rfl
    · next untagged =>
      refine .mono ih fun _ said accounts => ?_
      obtain ⟨kept, parts, listed, rfl, all⟩ := accounts
      refine ⟨kept, parts, ?_, rfl, all⟩
      rw [listed]
      rfl

private theorem checkCall_accounts :
    Reports s (s.checkCall owner e) fun _ => s.Accounts (s.keptInCall owner e) := by
  have nothing : s.Accounts (.ok []) [] := ⟨[], [], rfl, rfl, .nil⟩
  obtain ⟨location, type, node⟩ := e
  cases node with
  | memberCall callee base isArrow args =>
    cases callee with
    | none => exact .pure nothing
    | some callee =>
      refine .look fun f found => ?_
      unfold keptInCall
      dsimp only [Expr.node]
      rw [found, ok_bind]
      exact checkKeptArgs_accounts
  | _ => exact .pure nothing

/-- The rule gives an account of all kept arguments of user code, call by call. -/
private theorem checkExtensions_accounts :
    Reports s s.checkExtensions fun _ => s.Accounts s.keptArgs := by
  unfold keptArgs
  refine .look fun users listed => ?_
  rw [listed, ok_bind]
  refine .bind (.forInSteps (fun f => s.Accounts (s.keptInFunction f)) fun f _ _ => ?_)
    fun _ said all => .pure ?_
  · unfold keptInFunction
    refine .look fun decl found => .look fun nodes listed => ?_
    rw [found, ok_bind, listed, ok_bind]
    refine .bind (.forIn fun e _ => checkCall_accounts) fun _ said all => .pure ⟨rfl, ?_⟩
    obtain ⟨parts, each, rfl⟩ := all
    rw [List.append_nil]
    exact .flatten each
  · obtain ⟨parts, each, rfl⟩ := all
    rw [List.append_nil]
    exact .flatten each

section Listed

variable {π : Fault → Prop} (c : s.unit.Consistent)
include c

private theorem keptAmong_ends {pairs : List (VariableId × Expr)}
    (inside : ∀ p ∈ pairs, s.unit.Holds .vars p.1.index) :
    Ends π (s.keptAmong ofThis owner pairs) fun _ => True := by
  induction pairs with
  | nil => exact .pure trivial
  | cons pair rest ih =>
    unfold keptAmong
    refine .bind (c.variable_ends (inside pair List.mem_cons_self)) fun v _ => ?_
    exact .bind (ih fun p mem => inside p (List.mem_cons_of_mem _ mem)) fun _ _ => .pure trivial

private theorem keptInCall_ends (fits : e.Fits s.unit) :
    Ends π (s.keptInCall owner e) fun _ => True := by
  obtain ⟨-, fitsNode, -⟩ := Expr.fits_iff.mp fits
  unfold keptInCall
  split
  · next callee base isArrow args isCall =>
    rw [isCall] at fitsNode
    refine .bind (c.function_ends (fitsNode callee rfl)) fun f fitsF => ?_
    exact keptAmong_ends c fun pair mem => fitsF.params pair.1 (List.of_mem_zip mem).1
  · exact .pure trivial

/-- The kept arguments of a consistent unit can be listed. -/
theorem keptArgs_ends : Ends π s.keptArgs fun _ => True := by
  refine .bind (userFunctions_ends c) fun users inside => ?_
  refine .bind (ends_mapM (fun _ => True) fun f mem => ?_) fun _ _ => .pure trivial
  refine .bind (c.function_ends (inside f mem)) fun decl _ => ?_
  refine .bind (c.bodyNodes_ends (inside f mem)) fun nodes fits => ?_
  refine .bind (ends_mapM (fun _ => True) fun e mem => ?_) fun _ _ => .pure trivial
  exact keptInCall_ends c (fits e mem)

end Listed

/-- A construction that is kept outside of `this` is judged by its first argument, whatever the
others are. -/
def JudgedByFirst (s : Setting) (k : KeptArg) (said : List Remark) : Prop :=
  ∀ location type constructor first rest, k.ofThis = false →
    k.arg.Wraps (.mk location type (.construct constructor (first :: rest))) →
    s.ExtensionUnless k.arg (s.KeepsLambda false k.owner first) said

private theorem SaidOn.judgedByFirst {k : KeptArg} {said : List Remark} (h : s.SaidOn k said) :
    s.JudgedByFirst k said := by
  intro location type constructor first rest outside wraps
  have told := h outside
  rw [wraps.not_isFunctionRef, or_iff_right Bool.false_ne_true,
    keepsLambda_congr wraps.construct_eq] at told
  exact told

end Setting

namespace TranslationUnit

variable {u : TranslationUnit} {config : Config}

/-- What a rule reports on any coherent ledger it reports after other rules. -/
theorem findings_of_reports {rule : Rule} {post : List Remark → Prop}
    (made : Setting.of u config = .ok s) (reports : Reports s (rule.run s) fun _ => post)
    {first : List Rule} {journal : Journal}
    (check : u.check config (first ++ [rule]) = .ok journal) :
    ∃ before said, u.check config first = .ok before
      ∧ journal.findings = before.findings ++ said.map (·.under rule.name) ∧ post said := by
  obtain ⟨r, runs, rfl⟩ := run_of_check made check
  rw [Rule.runAll_append] at runs
  obtain ⟨⟨⟨⟩, before⟩, runsFirst, runsLast⟩ := bind_eq_ok.mp runs
  rw [Rule.runAll_cons] at runsLast
  obtain ⟨⟨⟨⟩, last⟩, runsRule, same⟩ := bind_eq_ok.mp runsLast
  cases same
  obtain ⟨after, said, rfl, -, holds⟩ := reports before.ledger _
    (Rule.coherent_of_runAll Ledger.coherent_empty runsFirst) ⟨⟩ last runsRule
  refine ⟨before.journal, said, ?_, ?_, holds⟩
  · rw [TranslationUnit.check, made, ok_bind]
    exact bind_eq_ok.mpr ⟨_, runsFirst, rfl⟩
  · rw [Journal.reportAll_eq]
    rfl

/-- Run after any other rules, the rule on kept arguments has one part of its findings for each
argument that is kept. Where the keeper is not part of `this` and the argument is a construction
under any wrappers, that part is empty if the first argument of the construction stands for a
lambda whose captures may be kept, and otherwise starts with an error. The other arguments of the
construction make no difference. -/
theorem kept_construction_judged_by_first (consistent : u.inconsistency? = none)
    (config : Config) :
    ∃ s kept, Setting.of u config = .ok s ∧ s.keptArgs = .ok kept
      ∧ (u.Founded → ∀ first, ∃ journal, u.check config (first ++ [.mayExtend]) = .ok journal)
      ∧ ∀ first journal, u.check config (first ++ [.mayExtend]) = .ok journal →
        ∃ before parts, u.check config first = .ok before
          ∧ journal.findings = before.findings ++ parts.flatten.map (·.under Rule.mayExtend.name)
          ∧ List.Forall₂ s.JudgedByFirst kept parts := by
  have c := inconsistency?_eq_none_iff.mp consistent
  obtain ⟨s, made, rfl, -⟩ := (Setting.of_ends (π := fun _ => False) c config).answer
  obtain ⟨kept, listed, -⟩ := (Setting.keptArgs_ends (π := fun _ => False) c).answer
  refine ⟨s, kept, made, listed, fun founded first => c.exists_journal founded, ?_⟩
  intro first journal check
  obtain ⟨before, said, checkFirst, same, kept', parts, listed', rfl, all⟩ :=
    findings_of_reports made Setting.checkExtensions_accounts check
  cases listed.symm.trans listed'
  exact ⟨before, parts, checkFirst, same, all.imp fun _ _ h => h.judgedByFirst⟩

-- ============================================================ a registry

/-- A handler that is made of the given arguments, as a temporary. -/
def handlerOf (args : List Expr) : Expr :=
  .mk ⟨some ⟨0⟩, ⟨4, 2⟩⟩ ⟨⟨1⟩, false⟩
    (.bindTemporary (.mk ⟨some ⟨0⟩, ⟨4, 2⟩⟩ ⟨⟨1⟩, false⟩ (.construct none args)))

/-- A registry that keeps handlers, and is given one:

    struct Handler;
    struct Registry { void add([[may_extend_to_this]] Handler handler); };
    void use() { Registry registry; int local; registry.add(Handler(args)); }
-/
def registration (args : List Expr) : TranslationUnit where
  files := #[⟨"registry.cpp", false⟩]
  types := ⟨#[.builtin .int, .record ⟨0⟩, .record ⟨1⟩, .builtin .void]⟩
  scopes := #[{ name := none, kind := .translationUnit, parent := none, attributes := .empty }]
  records :=
    let place : Location := ⟨some ⟨0⟩, ⟨0, 1⟩⟩
    #[.declared "Handler" ⟨0⟩ place,
      { RecordDecl.declared "Registry" ⟨0⟩ place with definition := some ⟨[], [], [⟨0⟩]⟩ }]
  functions :=
    let place : Location := ⟨some ⟨0⟩, ⟨0, 1⟩⟩
    #[{ FunctionDecl.declared "add" ⟨0⟩ place .method ⟨⟨3⟩, false⟩ with
        parent := some ⟨1⟩
        params := [⟨0⟩] },
      { FunctionDecl.declared "use" ⟨0⟩ place .free ⟨⟨3⟩, false⟩ with body := some ⟨2⟩ }]
  vars :=
    let place : Location := ⟨some ⟨0⟩, ⟨0, 1⟩⟩
    #[{ VariableDecl.declared "handler" ⟨⟨1⟩, false⟩ place .param with
        attributes := .ofList [.mayExtendToThis] },
      .declared "registry" ⟨⟨2⟩, false⟩ place .localVar,
      .declared "local" ⟨⟨0⟩, false⟩ place .localVar]
  statements :=
    let place : Location := ⟨some ⟨0⟩, ⟨0, 1⟩⟩
    let stmt (shape : StmtShape) : Stmt := ⟨none, place, shape⟩
    let registry : Expr := .mk place ⟨⟨2⟩, false⟩ (.declRef (.variableRef ⟨1⟩))
    #[stmt (.declare [⟨1⟩, ⟨2⟩]),
      stmt (.evaluate (.mk place ⟨⟨3⟩, false⟩
        (.memberCall (some ⟨0⟩) registry false [handlerOf args]))),
      stmt (.compound [⟨0⟩, ⟨1⟩])]

/-- A lambda without captures. -/
def callback : Expr := .mk ⟨some ⟨0⟩, ⟨5, 1⟩⟩ ⟨⟨1⟩, false⟩ (.lambda ⟨none, []⟩)

/-- A reference to the local variable. -/
def localRef : Expr := .mk ⟨some ⟨0⟩, ⟨6, 1⟩⟩ ⟨⟨0⟩, false⟩ (.declRef (.variableRef ⟨2⟩))

/-- A handler made of a local variable and a lambda is refused. -/
theorem registration_refused_by_first :
    (registration [localRef, callback]).inconsistency? = none
    ∧ (registration [localRef, callback]).Founded
    ∧ ∃ journal, (registration [localRef, callback]).check .default [.mayExtend] = .ok journal
      ∧ ∃ error notes, journal.findings = error :: notes ∧ error.severity = .error
        ∧ error.rule = Rule.mayExtend.name ∧ Setting.IsExtensionMessage error.message := by
  have consistent : (registration [localRef, callback]).inconsistency? = none := by decide
  have founded := (inconsistency?_eq_none_iff.mp consistent).founded (by decide)
  obtain ⟨s, kept, made, listed, ends, finds⟩ :=
    kept_construction_judged_by_first consistent .default
  obtain rfl : s = ⟨registration [localRef, callback], .default, []⟩ :=
    Except.ok.inj (made.symm.trans rfl)
  obtain rfl : kept = [⟨false, none, handlerOf [localRef, callback]⟩] :=
    Except.ok.inj (listed.symm.trans (by cbv))
  obtain ⟨journal, check⟩ := ends founded []
  obtain ⟨before, parts, checkFirst, same, each⟩ := finds [] journal check
  obtain rfl : before = .empty := Except.ok.inj (checkFirst.symm.trans rfl)
  obtain ⟨said, _, judged, ⟨⟩, rfl⟩ := List.forall₂_cons_left_iff.mp each
  have refused : ¬ Setting.KeepsLambda ⟨registration [localRef, callback], .default, []⟩ false none
      localRef := by
    rintro ⟨l, stands, -⟩
    cases stands with
    | itself is => cases is
    | byInitializer refers found initialized =>
      cases refers
      cases found
      cases initialized
  obtain ⟨e, notes, rfl, isError, worded, -, -⟩ :=
    (judged _ _ _ _ _ rfl (.bindTemporary (.refl _))).blamed refused
  exact ⟨consistent, founded, journal, check, e.under Rule.mayExtend.name, _, same, isError, rfl,
    worded⟩

/-- A handler made of a lambda and a local variable is accepted, although it may keep a reference
to the variable. -/
theorem registration_accepted_by_first :
    (registration [callback, localRef]).inconsistency? = none
    ∧ (∃ s k location type, Setting.of (registration [callback, localRef]) .default = .ok s
      ∧ s.keptArgs = .ok [k] ∧ k.ofThis = false
      ∧ k.arg.Wraps (.mk location type (.construct none [callback, localRef])))
    ∧ ((registration [callback, localRef]).check .default [.mayExtend]).map Journal.findings
      = .ok [] := by
  refine ⟨by decide, ⟨⟨registration [callback, localRef], .default, []⟩,
    ⟨false, none, handlerOf [callback, localRef]⟩, ⟨some ⟨0⟩, ⟨4, 2⟩⟩, ⟨⟨1⟩, false⟩, rfl, ?_⟩, ?_⟩
  · exact ⟨by cbv, rfl, .bindTemporary (.refl _)⟩
  · decide +kernel

end TranslationUnit

end SafeDialect
