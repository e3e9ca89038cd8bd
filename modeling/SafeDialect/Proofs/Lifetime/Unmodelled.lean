/-
Expressions that the check of flows has no rule for.

The check of a value goes through its parts in order and stops at the first that it does not accept.
It has something to say only where it comes to a shape that it has no rule for, and there it stops.
So it reports at most one internal error, it reports one exactly if it comes to such a shape, and
then the answer is that the value may not flow.
-/
import SafeDialect.Proofs.Lifetime.Flow
import SafeDialect.Proofs.Lifetime.InternalErrors

namespace SafeDialect

open Relation

-- ============================================================ where the check comes to

private theorem Node.carriers_subset (node : Node) : node.carriers ⊆ node.children := by
  cases node <;> simp [Node.carriers, Node.children]

namespace Setting

/-- A shape without a rule: a node that is not known, a field that is named without its object, and
an operator of an object that is called without one. -/
def Unmodelled (s : Setting) (e : Expr) : Prop :=
  match e.node with
  | .unsupported _ | .declRef (.fieldRef ..) => True
  | .operatorCall (some id) [] => ∃ f, s.unit.function id = .ok f ∧ f.isInstanceMethod = true
  | _ => False

/-- The declaration of a callee. -/
def callee? (s : Setting) (callee : Option FunctionId) : Option FunctionDecl :=
  callee.bind fun id => s.unit.functions[id.index]?

/-- The parts of a node that the check goes through, as long as it accepts them. It does not look at
arguments without a parameter, nor at any part of a call whose callee is not known. -/
def examined (s : Setting) : Node → List Expr
  | .freeCall callee args =>
    match s.callee? callee with
    | some f => args.take f.params.length
    | none => []
  | .memberCall callee base _ args =>
    match s.callee? callee with
    | some f => base :: args.take f.params.length
    | none => []
  | .operatorCall callee args =>
    match s.callee? callee with
    | some f => args.take (f.params.length + f.isInstanceMethod.toNat)
    | none => []
  | node => node.carriers

/-- The check of an expression comes to a node: to the expression itself, or to what the check of a
part comes to when all parts before it have been accepted. A call on a smart pointer is accepted
before its parts are looked at. -/
inductive ComesTo (s : Setting) (x : Extent) : Expr → Expr → Prop where
  | here (e : Expr) : ComesTo s x e e
  | part {e part n : Expr} {before after : List Expr} (plain : ¬ s.CallsOnPointer e.node)
      (parts : s.examined e.node = before ++ part :: after)
      (accepted : ∀ p ∈ before, s.Passes x p) (below : ComesTo s x part n) : ComesTo s x e n

/-- The check of an expression comes to a shape without a rule at a location. -/
def Stumbles (s : Setting) (x : Extent) (e : Expr) (location : Location) : Prop :=
  ∃ n, s.ComesTo x e n ∧ s.Unmodelled n ∧ n.location = location

/-- The check of several expressions, one after the other, comes to a shape without a rule. -/
def StumblesIn (s : Setting) (x : Extent) (parts : List Expr) (location : Location) : Prop :=
  ∃ before part after, parts = before ++ part :: after ∧ (∀ p ∈ before, s.Passes x p)
    ∧ s.Stumbles x part location

variable {s : Setting} {x : Extent} {e : Expr} {location : Location}

/-- An expression stumbles over itself, if it is not modelled, or over the first of what is examined
that does. -/
private theorem stumbles_iff : s.Stumbles x e location ↔
    (s.Unmodelled e ∧ e.location = location)
      ∨ (¬ s.CallsOnPointer e.node ∧ s.StumblesIn x (s.examined e.node) location) := by
  constructor
  · intro ⟨n, reached, unmodelled, here⟩
    cases reached with
    | here => exact .inl ⟨unmodelled, here⟩
    | part plain parts accepted below =>
      exact .inr ⟨plain, _, _, _, parts, accepted, n, below, unmodelled, here⟩
  · intro stumbles
    rcases stumbles with here | ⟨plain, before, part, after, parts, accepted, n, below, unmodelled⟩
    · exact ⟨e, .here e, here⟩
    · exact ⟨n, .part plain parts accepted below, unmodelled⟩

private theorem not_stumblesIn_nil : ¬ s.StumblesIn x [] location := by
  intro ⟨before, part, after, parts, _⟩
  simp at parts

/-- In a list, what comes later is reached only if all before it passes. -/
private theorem stumblesIn_cons {head : Expr} {tail : List Expr} :
    s.StumblesIn x (head :: tail) location ↔
      s.Stumbles x head location ∨ s.Passes x head ∧ s.StumblesIn x tail location := by
  constructor
  · intro ⟨before, part, after, parts, accepted, stumbles⟩
    cases before with
    | nil =>
      rw [List.nil_append, List.cons.injEq] at parts
      rw [parts.1]
      exact .inl stumbles
    | cons first before =>
      rw [List.cons_append, List.cons.injEq] at parts
      rw [parts.1]
      refine .inr ⟨accepted first List.mem_cons_self, before, part, after, parts.2, ?_, stumbles⟩
      intro p mem
      exact accepted p (List.mem_cons_of_mem _ mem)
  · intro stumbles
    rcases stumbles with stumbles | ⟨passes, before, part, after, parts, accepted, stumbles⟩
    · exact ⟨[], head, tail, rfl, by simp, stumbles⟩
    · refine ⟨head :: before, part, after, by rw [parts, List.cons_append], ?_, stumbles⟩
      rw [List.forall_mem_cons]
      exact ⟨passes, accepted⟩

/-- A node with rules stumbles where its parts do. -/
theorem stumbles_iff_parts (modelled : ¬ s.Unmodelled e) (plain : ¬ s.CallsOnPointer e.node) :
    s.StumblesIn x (s.examined e.node) location ↔ s.Stumbles x e location := by
  rw [stumbles_iff]
  simp [modelled, plain]

/-- A node with rules and no part that is looked at does not stumble. -/
theorem not_stumbles (modelled : ¬ s.Unmodelled e) (noParts : s.examined e.node = []) :
    ¬ s.Stumbles x e location := by
  rw [stumbles_iff, noParts]
  simp [modelled, not_stumblesIn_nil]

-- ============================================================ stumbling is rejection

private theorem examined_subset (s : Setting) (node : Node) : s.examined node ⊆ node.carriers := by
  cases node with
  | freeCall callee args | operatorCall callee args =>
    simp only [examined, Node.carriers]
    split
    · exact List.take_subset _ _
    · exact List.nil_subset _
  | memberCall callee base isArrow args =>
    simp only [examined, Node.carriers]
    split
    · exact List.cons_subset_cons _ (List.take_subset _ _)
    · exact List.nil_subset _
  | _ => exact List.Subset.refl _

private theorem Unmodelled.not_acceptable (unmodelled : s.Unmodelled e) : ¬ s.Acceptable x e := by
  obtain ⟨location, type, node⟩ := e
  unfold Unmodelled Acceptable at *
  simp only [Expr.node] at *
  split at unmodelled
  · exact id
  · exact id
  · next id =>
    obtain ⟨f, look, isInstance⟩ := unmodelled
    simp [CallsOnPointer, look, isInstance]
  · exact unmodelled.elim

/-- The check comes only to nodes that can carry the value. -/
theorem ComesTo.carries {n : Expr} (reached : s.ComesTo x e n) : ReflTransGen s.Carries e n := by
  induction reached with
  | here e => exact .refl
  | part plain parts _ _ ih =>
    refine .head ⟨s.examined_subset _ ?_, plain⟩ ih
    rw [parts]
    exact List.mem_append_right _ List.mem_cons_self

private theorem Unmodelled.examined_eq_nil (unmodelled : s.Unmodelled e) :
    s.examined e.node = [] := by
  obtain ⟨location, type, node⟩ := e
  unfold Unmodelled at unmodelled
  simp only [Expr.node] at *
  split at unmodelled
  · rfl
  · rfl
  · simp only [examined, List.take_nil]
    split <;> rfl
  · exact unmodelled.elim

/-- What stumbles does not pass. -/
theorem Stumbles.not_passes (stumbles : s.Stumbles x e location) : ¬ s.Passes x e := by
  obtain ⟨n, reached, unmodelled, -⟩ := stumbles
  intro passes
  exact unmodelled.not_acceptable (passes n reached.carries)

/-- The check stumbles at one part only: what it goes past it has accepted. -/
theorem StumblesIn.unique {parts : List Expr} {other : Location}
    (each : ∀ p ∈ parts, s.Stumbles x p location → s.Stumbles x p other → location = other)
    (one : s.StumblesIn x parts location) (two : s.StumblesIn x parts other) :
    location = other := by
  induction parts with
  | nil => exact absurd one not_stumblesIn_nil
  | cons head tail ih =>
    rw [List.forall_mem_cons] at each
    rw [stumblesIn_cons] at one two
    rcases one with one | ⟨passes, one⟩ <;> rcases two with two | ⟨passes', two⟩
    · exact each.1 one two
    · exact absurd passes' one.not_passes
    · exact absurd passes two.not_passes
    · exact ih each.2 one two

/-- The walk stops where it stumbles first, so there is one such place. -/
theorem Stumbles.unique {other : Location} (one : s.Stumbles x e location)
    (two : s.Stumbles x e other) : location = other := by
  induction e using Expr.induction_on_parts with
  | step e ih =>
    rw [stumbles_iff] at one two
    rcases one with ⟨unmodelled, here⟩ | ⟨-, one⟩
    · rcases two with ⟨-, here'⟩ | ⟨-, two⟩
      · rw [← here, here']
      · rw [unmodelled.examined_eq_nil] at two
        exact absurd two not_stumblesIn_nil
    · rcases two with ⟨unmodelled, -⟩ | ⟨-, two⟩
      · rw [unmodelled.examined_eq_nil] at one
        exact absurd one not_stumblesIn_nil
      · apply StumblesIn.unique _ one two
        intro p mem
        exact ih p (e.node.carriers_subset (s.examined_subset _ mem))

end Setting

-- ============================================================ steps that stumble

/-- If a step ends, it has made one internal error where it stumbles, and it has said nothing if it
stumbles nowhere. -/
def Stumbling (act : Speak Bool) (stumbles : Location → Prop) : Prop :=
  ∀ voice, Runs (fun _ => True) act voice fun _ after =>
    (∃ location, stumbles location ∧ after = voice.sayInternalError location)
      ∨ (∀ location, ¬ stumbles location) ∧ after = voice

namespace Stumbling

variable {act next : Speak Bool} {first rest stumbles : Location → Prop} {p : Prop}

/-- What is stumbled over may be put differently. -/
theorem congr (h : Stumbling act first) (same : ∀ location, first location ↔ rest location) :
    Stumbling act rest := by
  have equal : first = rest := funext fun location => propext (same location)
  rw [← equal]
  exact h

/-- An answer that is at hand has met nothing unknown. -/
theorem pure {answer : Bool} (never : ∀ location, ¬ stumbles location) :
    Stumbling (Pure.pure answer) stumbles := fun _ => .pure (.inr ⟨never, rfl⟩)

/-- Nor has one that is looked up. -/
theorem lift {x : Result Bool} (never : ∀ location, ¬ stumbles location) :
    Stumbling (liftM x) stumbles := by
  intro voice
  apply Runs.mono (Runs.lift (Ends.always x))
  intro _ after known
  exact .inr ⟨never, known.2⟩

/-- A complaint says where. -/
theorem complaint {location : Location} {answer : Bool} (here : stumbles location) :
    Stumbling (do Speak.internalError location; return answer) stumbles :=
  fun _ => .modify_bind (.pure (.inl ⟨location, here, rfl⟩))

/-- One step and then another, if the first is true. A step that stumbles is not true, so the second
is silent. -/
theorem and (ofFirst : Stumbling act first) (decides : Decides (fun _ => True) act p)
    (ofNext : Stumbling next rest) (stops : ∀ location, first location → ¬ p) :
    Stumbling (do if ← act then next else return false)
      fun location => first location ∨ p ∧ rest location := by
  intro voice
  have told : Runs _ act voice _ := ofFirst voice
  have decided : Runs _ act voice _ := decides voice
  unfold Runs at told decided ⊢
  cases run : act voice with
  | error fault => simp [bind, StateT.bind, run, Except.bind, Ends]
  | ok outcome =>
    obtain ⟨answer, after⟩ := outcome
    rw [run] at told decided
    have iff : answer = true ↔ p := decided
    simp only [bind, StateT.bind, run, Except.bind]
    cases answer with
    | false =>
      have fails : ¬ p := fun holds => nomatch iff.mpr holds
      rcases told with ⟨location, here, said⟩ | ⟨never, said⟩
      · exact .inl ⟨location, .inl here, said⟩
      · refine .inr ⟨fun location => ?_, said⟩
        simp [never location, fails]
    | true =>
      have holds := iff.mp rfl
      rcases told with ⟨location, here, -⟩ | ⟨never, said⟩
      · exact absurd holds (stops location here)
      · have same : after = voice := said
        rw [same]
        apply Ends.mono (ofNext voice)
        simp [never, holds]

end Stumbling

-- ============================================================ the check stumbles

section Walk

variable {s : Setting} {x : Extent}

/-- What is known of a part: the check decides it, and says where it stumbles. -/
structure Walked (s : Setting) (x : Extent) (e : Expr) : Prop where
  decides : Decides (fun _ => True) (e.flows s x) (s.Passes x e)
  stumbling : Stumbling (e.flows s x) (s.Stumbles x e)

/-- A list is walked from its head, and goes on only where the head passes. -/
theorem Walked.cons {head : Expr} {tail : List Expr} {next : Speak Bool} (ofHead : Walked s x head)
    (ofTail : Stumbling next (s.StumblesIn x tail)) :
    Stumbling (do if ← head.flows s x then next else return false)
      (s.StumblesIn x (head :: tail)) := by
  apply (ofHead.stumbling.and ofHead.decides ofTail fun _ => Setting.Stumbles.not_passes).congr
  intro location
  exact Setting.stumblesIn_cons.symm

/-- The last of several parts. -/
theorem Walked.last {e : Expr} (walked : Walked s x e) :
    Stumbling (e.flows s x) (s.StumblesIn x [e]) := by
  apply walked.stumbling.congr
  intro location
  simp [Setting.stumblesIn_cons, Setting.not_stumblesIn_nil]

private theorem allFlow_stumbling {l : List Expr} (each : ∀ e ∈ l, Walked s x e) :
    Stumbling (Expr.allFlow s x l) (s.StumblesIn x l) := by
  induction l with
  | nil => exact .pure fun _ => Setting.not_stumblesIn_nil
  | cons head tail ih =>
    unfold Expr.allFlow
    rw [List.forall_mem_cons] at each
    exact each.1.cons (ih each.2)

variable (c : s.unit.Consistent)
include c

private theorem argsFlow_stumbling {args : List Expr} {params : List VariableId}
    (inside : ∀ id ∈ params, s.unit.Holds .vars id.index) (each : ∀ e ∈ args, Walked s x e) :
    Stumbling (Expr.argsFlow s x args params) (s.StumblesIn x (args.take params.length)) := by
  induction args generalizing params with
  | nil =>
    rw [List.take_nil]
    cases params <;> exact .pure fun _ => Setting.not_stumblesIn_nil
  | cons arg args ih =>
    cases params with
    | nil => exact .pure fun _ => Setting.not_stumblesIn_nil
    | cons param params =>
      rw [List.forall_mem_cons] at inside each
      obtain ⟨v, look, -⟩ := (c.variable_ends inside.1).answer
      unfold Expr.argsFlow
      simp only [look, Runs.lift_ok_bind, List.length_cons, List.take_succ_cons]
      exact each.1.cons (ih inside.2 each.2)

/-- The check of a call on a receiver stumbles at the receiver and then at the arguments, unless it
is a call on a smart pointer. -/
theorem receiverFlows_stumbling {receiver : Expr} {args : List Expr} {params : List VariableId}
    (fits : receiver.Fits s.unit) (inside : ∀ id ∈ params, s.unit.Holds .vars id.index)
    (ofReceiver : Walked s x receiver) (each : ∀ e ∈ args, Walked s x e) :
    Stumbling (do
        if ← s.isSafePtr receiver.type then return true
        else if ← receiver.flows s x then Expr.argsFlow s x args params
        else return false)
      fun location => s.isSafePtr receiver.type ≠ .ok true
        ∧ s.StumblesIn x (receiver :: args.take params.length) location := by
  obtain ⟨pointer, known, -⟩ := (Setting.isSafePtr_ends c (Expr.fits_iff.mp fits).1).answer
  simp only [known, Runs.lift_ok_bind]
  cases pointer with
  | true => exact .pure (by simp)
  | false => exact (ofReceiver.cons (argsFlow_stumbling c inside each)).congr (by simp)

section Calls

variable {location : Location} {type : QualifiedType} {callee : Option FunctionId}
  (inside : ∀ id, callee = some id → s.unit.Holds .functions id.index)
include inside

private theorem freeCall_stumbling {args : List Expr} (each : ∀ e ∈ args, Walked s x e) :
    Stumbling (Node.flows s x location (.freeCall callee args))
      (s.Stumbles x (.mk location type (.freeCall callee args))) := by
  cases callee with
  | none => exact .pure fun _ => Setting.not_stumbles id rfl
  | some callee =>
    obtain ⟨f, look, fits⟩ := (c.function_ends (inside callee rfl)).answer
    have found : s.callee? (some callee) = some f := eq_of_entry look
    simp only [Node.flows, look, Runs.lift_ok_bind]
    apply (argsFlow_stumbling c fits.params each).congr
    intro place
    simp [Setting.stumbles_iff, Setting.Unmodelled, Setting.CallsOnPointer, Expr.node,
      Setting.examined, found]

private theorem memberCall_stumbling {base : Expr} {isArrow : Bool} {args : List Expr}
    (fitsBase : base.Fits s.unit) (ofBase : Walked s x base) (each : ∀ e ∈ args, Walked s x e) :
    Stumbling (Node.flows s x location (.memberCall callee base isArrow args))
      (s.Stumbles x (.mk location type (.memberCall callee base isArrow args))) := by
  cases callee with
  | none => exact .pure fun _ => Setting.not_stumbles id rfl
  | some callee =>
    obtain ⟨f, look, fits⟩ := (c.function_ends (inside callee rfl)).answer
    have found : s.callee? (some callee) = some f := eq_of_entry look
    simp only [Node.flows, look, Runs.lift_ok_bind]
    apply (receiverFlows_stumbling c fitsBase fits.params ofBase each).congr
    intro place
    simp [Setting.stumbles_iff, Setting.Unmodelled, Setting.CallsOnPointer, Expr.node,
      Setting.examined, found]

private theorem operatorCall_stumbling {args : List Expr} (fitsArgs : ∀ e ∈ args, e.Fits s.unit)
    (each : ∀ e ∈ args, Walked s x e) :
    Stumbling (Node.flows s x location (.operatorCall callee args))
      (s.Stumbles x (.mk location type (.operatorCall callee args))) := by
  cases callee with
  | none => exact .pure fun _ => Setting.not_stumbles id rfl
  | some callee =>
    obtain ⟨f, look, fits⟩ := (c.function_ends (inside callee rfl)).answer
    have found : s.callee? (some callee) = some f := eq_of_entry look
    simp only [Node.flows, look, Runs.lift_ok_bind]
    cases isInstance : f.isInstanceMethod with
    | false =>
      apply (argsFlow_stumbling c fits.params each).congr
      intro place
      cases args <;> simp [Setting.stumbles_iff, Setting.Unmodelled, Setting.CallsOnPointer,
        Expr.node, Setting.examined, found, look, isInstance]
    | true =>
      cases args with
      | nil =>
        -- an operator of an object without one is reported where it stands
        apply Stumbling.complaint
        rw [Setting.stumbles_iff]
        exact .inl ⟨⟨f, look, isInstance⟩, rfl⟩
      | cons receiver args =>
        rw [List.forall_mem_cons] at fitsArgs each
        apply (receiverFlows_stumbling c fitsArgs.1 fits.params each.1 each.2).congr
        intro place
        simp [Setting.stumbles_iff, Setting.Unmodelled, Setting.CallsOnPointer, Expr.node,
          Setting.examined, found, look, isInstance]

end Calls

/-- The check of a value stumbles at the first shape without a rule that it comes to. -/
theorem Expr.flows_stumbling {e : Expr} (known : x ≠ .unknown) (fits : e.Fits s.unit) :
    Stumbling (e.flows s x) (s.Stumbles x e) := by
  induction e using Expr.induction_on_parts with
  | step e ih =>
    obtain ⟨-, fitsNode, fitsParts⟩ := Expr.fits_iff.mp fits
    have part (p : Expr) (mem : p ∈ e.node.children) : Walked s x p :=
      ⟨Expr.flows_decides c known (fitsParts p mem) fun _ _ => Ends.always _,
        ih p mem (fitsParts p mem)⟩
    cases e with
    | mk location type node =>
      have parts (modelled : ¬ s.Unmodelled (.mk location type node))
          (plain : ¬ s.CallsOnPointer node) (place : Location) :
          s.StumblesIn x (s.examined node) place ↔ s.Stumbles x (.mk location type node) place :=
        Setting.stumbles_iff_parts modelled plain
      unfold Expr.flows
      cases node with
      | nullPointer | integer | thisObject | lambda =>
        exact .pure fun _ => Setting.not_stumbles id rfl
      | unsupported => exact .complaint (Setting.stumbles_iff.mpr (.inl ⟨trivial, rfl⟩))
      | declRef target =>
        cases target with
        | variableRef => exact .lift fun _ => Setting.not_stumbles id rfl
        | functionRef => exact .pure fun _ => Setting.not_stumbles id rfl
        | fieldRef => exact .complaint (Setting.stumbles_iff.mpr (.inl ⟨trivial, rfl⟩))
      | member inner | unary _ inner | cast _ inner | paren inner | defaultArgument inner
      | materializeTemporary inner | bindTemporary inner | withCleanups inner =>
        exact (part inner List.mem_cons_self).last.congr (parts id id)
      | binary op lhs rhs =>
        have first := part lhs (by simp [Expr.node, Node.children])
        have second := part rhs (by simp [Expr.node, Node.children])
        exact (first.cons second.last).congr (parts id id)
      | conditional condition thenExpr elseExpr =>
        have first := part thenExpr (by simp [Expr.node, Node.children])
        have second := part elseExpr (by simp [Expr.node, Node.children])
        exact (first.cons second.last).congr (parts id id)
      | construct callee args => exact (allFlow_stumbling part).congr (parts id id)
      | freeCall callee args => exact freeCall_stumbling c fitsNode part
      | memberCall callee base isArrow args =>
        exact memberCall_stumbling c fitsNode (fitsParts base List.mem_cons_self)
          (part base List.mem_cons_self) fun e mem => part e (List.mem_cons_of_mem _ mem)
      | operatorCall callee args => exact operatorCall_stumbling c fitsNode fitsParts part

end Walk

-- ============================================================ what a flow says

/-- The check of a flow answers, unless it follows statements that stand inside themselves. -/
theorem mayFlow_answers {s : Setting} {x : Extent} {e : Expr} (c : s.unit.Consistent)
    (inUnit : x.Fits s.unit) (fits : e.Fits s.unit) (voice : Voice) :
    (∃ flows after, (s.mayFlow x e).run voice = .ok (flows, after))
      ∨ (s.mayFlow x e).run voice = .error .endless ∧ ¬ s.unit.ParentsFounded := by
  by_cases founded : s.unit.ParentsFounded
  · obtain ⟨stmtRank, ranked⟩ := c.exists_stmtsRanked founded
    obtain ⟨flows, after, run, -⟩ :=
      (mayFlow_completes c (fun _ => ranked) inUnit fits).answer voice
    exact .inl ⟨flows, after, run⟩
  · have ranked : ¬ Fault.endless = .endless → s.unit.StmtsRanked fun _ => 0 :=
      fun forbidden => absurd rfl forbidden
    have completes : Completes (· = .endless) (s.mayFlow x e) fun _ => True :=
      mayFlow_completes c ranked inUnit fits
    have ends : Ends (· = .endless) ((s.mayFlow x e).run voice) _ := completes voice
    cases run : (s.mayFlow x e).run voice with
    | ok outcome => exact .inl ⟨outcome.1, outcome.2, rfl⟩
    | error fault =>
      rw [run] at ends
      have endless : fault = .endless := ends
      rw [endless]
      exact .inr ⟨rfl, founded⟩

section Ending

variable {s : Setting} {x : Extent} {e : Expr} {voice after : Voice} {flows : Bool}

/-- An extent that is not known ends the walk before it starts. -/
private theorem Setting.mayFlow_stumbling (c : s.unit.Consistent) (fits : e.Fits s.unit) :
    Stumbling (s.mayFlow x e) fun location => x ≠ .unknown ∧ s.Stumbles x e location := by
  unfold Setting.mayFlow
  by_cases known : x = .unknown
  · rw [if_pos known]
    exact .pure fun _ stumbles => stumbles.1 known
  · rw [if_neg known]
    apply (Expr.flows_stumbling c known fits).congr
    simp [known]

/-- A value that may flow passes. -/
theorem Setting.passes_of_mayFlow (c : s.unit.Consistent) (fits : e.Fits s.unit)
    (run : (s.mayFlow x e).run voice = .ok (true, after)) : s.Passes x e := by
  unfold Setting.mayFlow at run
  by_cases known : x = .unknown
  · rw [if_pos known] at run
    cases run
  · rw [if_neg known] at run
    have decides : Decides (fun _ => True) (e.flows s x) (s.Passes x e) :=
      Expr.flows_decides c known fits fun _ _ => Ends.always _
    exact (decides.true_iff voice).mp ⟨after, run⟩

/-- An internal error changes nothing but what has been said. -/
theorem Voice.eq_of_sayInternalError {location : Location}
    (said : after = voice.sayInternalError location) :
    after = voice ∨ after =
      { voice with said := voice.said ++ [⟨location, internalErrorMessage, .error⟩] } := by
  rw [said]
  unfold sayInternalError
  cases voice.level with
  | none => exact .inl rfl
  | some level => exact .inr rfl

private theorem Voice.said_sayInternalError (audible : voice.isSilent = false)
    (location : Location) : (voice.sayInternalError location).said =
      voice.said ++ [⟨location, internalErrorMessage, .error⟩] := by
  obtain ⟨level, said⟩ := voice
  cases level with
  | none => cases audible
  | some level => rfl

/-- A voice that is not silent lets out an internal error exactly where the check stumbles. -/
theorem Setting.said_mayFlow_iff (c : s.unit.Consistent) (fits : e.Fits s.unit)
    (run : (s.mayFlow x e).run voice = .ok (flows, after)) (audible : voice.isSilent = false)
    (location : Location) :
    after.said = voice.said ++ [⟨location, internalErrorMessage, .error⟩] ↔
      x ≠ .unknown ∧ s.Stumbles x e location := by
  rcases Runs.of_eq (mayFlow_stumbling c fits voice) run with
    ⟨place, ⟨known, stumbles⟩, rfl⟩ | ⟨never, rfl⟩
  · rw [Voice.said_sayInternalError audible]
    simp only [List.append_cancel_left_eq, List.cons.injEq, Remark.mk.injEq, and_true]
    constructor
    · intro same
      rw [← same]
      exact ⟨known, stumbles⟩
    · intro other
      exact stumbles.unique other.2
  · simp only [never location, iff_false]
    intro longer
    simp at longer

end Ending

/-- The check of a flow says at most one thing. That is an internal error, and then the value may
not flow: it is made where the check comes to a shape without a rule, and in no other case. A value
that may flow is accepted in silence, and one that a shape without a rule can carry never may. -/
theorem flow_reports_unmodelled {u : TranslationUnit} (consistent : u.inconsistency? = none)
    (config : Config) :
    ∃ s, Setting.of u config = .ok s ∧ ∀ (x : Extent) (e : Expr) (voice : Voice),
      x.Fits u → e.Fits u →
      ((∃ flows after, (s.mayFlow x e).run voice = .ok (flows, after))
        ∨ (s.mayFlow x e).run voice = .error .endless ∧ ¬ u.ParentsFounded)
      ∧ ∀ flows after, (s.mayFlow x e).run voice = .ok (flows, after) →
        (after = voice ∨ flows = false ∧ ∃ location,
          after = { voice with said := voice.said ++ [⟨location, internalErrorMessage, .error⟩] })
        ∧ (flows = true → after = voice)
        ∧ (∀ n, ReflTransGen s.Carries e n → s.Unmodelled n → flows = false)
        ∧ (voice.isSilent = false → ∀ location,
          after.said = voice.said ++ [⟨location, internalErrorMessage, .error⟩] ↔
            x ≠ .unknown ∧ ∃ n, s.ComesTo x e n ∧ s.Unmodelled n ∧ n.location = location) := by
  have c := TranslationUnit.inconsistency?_eq_none_iff.mp consistent
  obtain ⟨s, setting, rfl, -⟩ := (Setting.of_ends c config).answer
  refine ⟨s, setting, ?_⟩
  intro x e voice inUnit fits
  refine ⟨mayFlow_answers c inUnit fits voice, ?_⟩
  intro flows after run
  have blames := Runs.of_eq (Setting.mayFlow_blames voice) run
  refine ⟨?_, ?_, ?_, Setting.said_mayFlow_iff c fits run⟩
  · rcases blames with silent | ⟨rejected, location, said⟩
    · exact .inl silent
    · rcases Voice.eq_of_sayInternalError said with silent | reported
      · exact .inl silent
      · exact .inr ⟨rejected, location, reported⟩
  · intro accepted
    rcases blames with silent | ⟨rejected, -⟩
    · exact silent
    · rw [accepted] at rejected
      cases rejected
  · intro n carried unmodelled
    cases flows with
    | false => rfl
    | true =>
      have passes := Setting.passes_of_mayFlow c fits run
      exact absurd (passes n carried) unmodelled.not_acceptable

/-- The value `nullptr, <a>, <b>` with two nodes that are not known, the second one after the
first. -/
def Expr.twoUnknown : Expr :=
  let node (offset : Nat) (node : Node) : Expr := .mk ⟨some ⟨0⟩, ⟨offset, 1⟩⟩ ⟨⟨1⟩, false⟩ node
  node 0 (.binary .comma
    (node 0 (.binary .comma (node 0 .nullPointer) (node 9 (.unsupported "StmtExpr"))))
    (node 12 (.unsupported "ChooseExpr")))

open TranslationUnit in
/-- Of two nodes that are not known the first one is reported, and the value is rejected. -/
theorem twoUnknown_reports_unmodelled :
    nestedBlocks.inconsistency? = none ∧ Expr.twoUnknown.Fits nestedBlocks
    ∧ (Extent.localVar ⟨1⟩).Fits nestedBlocks
    ∧ ∃ s, Setting.of nestedBlocks .default = .ok s ∧ ∃ after,
      (s.mayFlow (.localVar ⟨1⟩) .twoUnknown).run (.speaking .warning) = .ok (false, after)
      ∧ after.said = [⟨⟨some ⟨0⟩, ⟨9, 1⟩⟩, internalErrorMessage, .error⟩] := by
  have consistent : nestedBlocks.inconsistency? = none := by decide
  have c := inconsistency?_eq_none_iff.mp consistent
  have resolves : ∀ r ∈ Expr.twoUnknown.references (.statement 0), nestedBlocks.flaw? r = none := by
    decide
  have fits : Expr.twoUnknown.Fits nestedBlocks :=
    fits_of_expr fun r mem => flaw?_eq_none_iff.mp (resolves r mem)
  have inUnit : (Extent.localVar ⟨1⟩).Fits nestedBlocks := by
    intro id same
    cases same
    decide
  obtain ⟨s, setting, all⟩ := flow_reports_unmodelled consistent .default
  obtain ⟨ends, tells⟩ := all (.localVar ⟨1⟩) .twoUnknown (.speaking .warning) inUnit fits
  rcases ends with ⟨flows, after, run⟩ | ⟨-, unfounded⟩
  · obtain ⟨-, -, rejects, reports⟩ := tells flows after run
    have rejected : flows = false :=
      rejects _ (.head ⟨List.mem_cons_of_mem _ List.mem_cons_self, id⟩ .refl) trivial
    rw [rejected] at run
    let first : Expr := .mk ⟨some ⟨0⟩, ⟨9, 1⟩⟩ ⟨⟨1⟩, false⟩ (.unsupported "StmtExpr")
    have reached : s.ComesTo (.localVar ⟨1⟩) .twoUnknown first := by
      refine .part id (rfl : _ = [] ++ _ :: [_]) nofun ?_
      refine .part id (rfl : _ = [_] ++ _ :: []) ?_ (.here _)
      rw [List.forall_mem_singleton]
      exact (Setting.passes_iff_parts (e := .mk _ _ .nullPointer) id trivial).mpr nofun
    refine ⟨consistent, fits, inUnit, s, setting, after, run, ?_⟩
    exact (reports rfl _).mpr ⟨nofun, first, reached, trivial, rfl⟩
  · exact absurd (c.parentsFounded (by decide)) unfounded

end SafeDialect
