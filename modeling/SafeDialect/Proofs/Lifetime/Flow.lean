/-
Which values may flow: those of which every node that can carry them is acceptable.

The check goes through an expression and stops at the first node that it does not accept. What it
amounts to is said here without an order: an expression hands its value on from certain parts, and
the value may flow if every node reached through such parts is acceptable as it stands. A call on a
smart pointer has no such parts.
-/
import SafeDialect.Lifetime.Flow
import SafeDialect.Proofs.Lifetime.Extent
import SafeDialect.Proofs.Setting.Lookup

namespace SafeDialect

open Relation

-- ============================================================ steps that decide

/-- A step answers whether something holds. If it may fault at all, that does not hold. -/
def Decides (π : Fault → Prop) (act : Speak Bool) (p : Prop) : Prop :=
  Completes (fun fault => π fault ∧ ¬ p) act fun answer => answer = true ↔ p

namespace Decides

variable {π : Fault → Prop} {act next : Speak Bool} {p q : Prop}

/-- A plain yes. -/
theorem yes : Decides π (pure true) True := .pure (iff_of_true rfl trivial)

/-- A plain no. -/
theorem no : Decides π (pure false) False := .pure (iff_of_false nofun id)

/-- What is decided may be put differently. -/
theorem congr (h : Decides π act p) (same : p ↔ q) : Decides π act q := by
  rw [← propext same]
  exact h

/-- An expression that is not known does not flow, and this is reported. -/
theorem complaint {location : Location} :
    Decides π (do Speak.internalError location; return false) False :=
  .bind .modify fun _ _ => no

/-- What a look-up answers is decided by it. -/
theorem lift {x : Result Bool} (ends : Ends π x fun _ => True) :
    Decides π (liftM x) (x = .ok true) := by
  refine Completes.lift ?_
  cases x with
  | error fault => exact ⟨ends, nofun⟩
  | ok answer => exact Except.ok.injEq answer true ▸ Iff.rfl

/-- One step and then another, if the first is true. -/
theorem and (first : Decides π act p) (second : Decides π next q) :
    Decides π (do if ← act then next else return false) (p ∧ q) := by
  refine Completes.bind (first.permit fun _ faults => ⟨faults.1, fun both => faults.2 both.1⟩)
    fun answer told => ?_
  cases answer with
  | false =>
    refine no.congr (iff_of_false id fun both => ?_)
    cases told.mpr both.1
  | true => exact second.congr (and_iff_right (told.mp rfl)).symm

/-- What decides something completes. -/
theorem completes (h : Decides π act p) : Completes π act fun _ => True :=
  .mono (h.permit fun _ => And.left) fun _ _ => trivial

/-- What decides something says yes just if it is so, in whatever voice. -/
theorem true_iff (h : Decides π act p) (voice : Voice) :
    (∃ voice', act.run voice = .ok (true, voice')) ↔ p := by
  have ends : Ends _ (act.run voice) _ := h voice
  cases run : act.run voice with
  | error fault =>
    rw [run] at ends
    exact iff_of_false nofun ends.2
  | ok outcome =>
    obtain ⟨answer, voice'⟩ := outcome
    rw [run] at ends
    rw [← show answer = true ↔ p from ends]
    simp

end Decides

-- ============================================================ what a value is made of

/-- The parts that can carry the value of a node. -/
def Node.carriers : Node → List Expr
  | .nullPointer | .integer _ | .thisObject | .declRef _ | .lambda _ | .unsupported _ => []
  | .freeCall _ args | .operatorCall _ args | .construct _ args => args
  | .memberCall _ base _ args => base :: args
  | .member base _ _ => [base]
  | .unary _ operand | .cast _ operand => [operand]
  | .binary _ lhs rhs => [lhs, rhs]
  | .conditional _ thenExpr elseExpr => [thenExpr, elseExpr]
  | .paren inner | .defaultArgument inner | .materializeTemporary inner | .bindTemporary inner
  | .withCleanups inner => [inner]

/-- A call on a smart pointer: the base of a member call, or the first argument of an operator that
is an instance method, has the type of one. -/
def Setting.CallsOnPointer (s : Setting) : Node → Prop
  | .memberCall (some _) base _ _ => s.isSafePtr base.type = .ok true
  | .operatorCall (some id) (receiver :: _) =>
    ∃ f, s.unit.function id = .ok f ∧ f.isInstanceMethod ∧ s.isSafePtr receiver.type = .ok true
  | _ => False

/-- The value of an expression may be that of a part. -/
def Setting.Carries (s : Setting) (e part : Expr) : Prop :=
  part ∈ e.node.carriers ∧ ¬ s.CallsOnPointer e.node

/-- A variable whose value may flow into an extent that is known: it lives as long as the program or
may extend to the object; or it is a parameter and the extent is not that of the object; or it is
another local and outlives the one that the extent is of. -/
def TranslationUnit.VariableFlows (u : TranslationUnit) (x : Extent) (id : VariableId) : Prop :=
  ∃ v, u.variableDecl id = .ok v ∧
    (v.hasGlobalStorage ∨ v.has .mayExtendToThis ∨ (v.isParam ∧ x ≠ .object)
      ∨ (¬ v.isParam ∧ ∃ target, x = .localVar target ∧ u.outlives id target = .ok true))

/-- A node that is acceptable as it stands, whatever its parts are. -/
def Setting.Acceptable (s : Setting) (x : Extent) (e : Expr) : Prop :=
  match e.node with
  | .declRef (.variableRef id) => s.unit.VariableFlows x id
  | .declRef (.functionRef _) | .declRef (.fieldRef ..) | .lambda _ | .unsupported _ => False
  | .freeCall callee args =>
    ∃ id f, callee = some id ∧ s.unit.function id = .ok f ∧ args.length = f.params.length
  | .memberCall callee _ _ args =>
    ∃ id f, callee = some id ∧ s.unit.function id = .ok f
      ∧ (s.CallsOnPointer e.node ∨ args.length = f.params.length)
  | .operatorCall callee args =>
    ∃ id f, callee = some id ∧ s.unit.function id = .ok f
      ∧ (s.CallsOnPointer e.node ∨ args.length = f.params.length + f.isInstanceMethod.toNat)
  | .nullPointer | .integer _ | .thisObject | .member .. | .unary .. | .binary ..
  | .conditional .. | .cast .. | .paren _ | .construct .. | .defaultArgument _
  | .materializeTemporary _ | .bindTemporary _ | .withCleanups _ => True

/-- Every node that can carry the value of an expression is acceptable. -/
def Setting.Passes (s : Setting) (x : Extent) (e : Expr) : Prop :=
  ∀ n, ReflTransGen s.Carries e n → s.Acceptable x n

variable {s : Setting} {x : Extent} {e : Expr}

/-- An expression passes if it is acceptable itself and so is all that it carries. -/
theorem Setting.passes_iff :
    s.Passes x e ↔ s.Acceptable x e ∧ ∀ part, s.Carries e part → s.Passes x part := by
  constructor
  · intro all
    exact ⟨all e .refl, fun part carries n reached => all n (.head carries reached)⟩
  · rintro ⟨here, below⟩ n reached
    rcases ReflTransGen.cases_head reached with rfl | ⟨part, carries, rest⟩
    · exact here
    · exact below part carries n rest

/-- Away from smart pointers a value passes with all its parts. -/
theorem Setting.passes_iff_of_not_pointer (plain : ¬ s.CallsOnPointer e.node) :
    s.Passes x e ↔ s.Acceptable x e ∧ ∀ part ∈ e.node.carriers, s.Passes x part := by
  rw [passes_iff]
  refine and_congr_right fun _ => forall_congr' fun part => ?_
  exact ⟨fun h mem => h ⟨mem, plain⟩, fun h carries => h carries.1⟩

/-- A call on a smart pointer passes if it is acceptable as it stands. -/
theorem Setting.passes_iff_of_pointer (pointer : s.CallsOnPointer e.node) :
    s.Passes x e ↔ s.Acceptable x e := by
  rw [passes_iff]
  exact and_iff_left fun part carries => absurd pointer carries.2

/-- A node that is always acceptable, and no call, passes with its parts. -/
theorem Setting.passes_iff_parts (plain : ¬ s.CallsOnPointer e.node) (fine : s.Acceptable x e) :
    s.Passes x e ↔ ∀ part ∈ e.node.carriers, s.Passes x part := by
  rw [passes_iff_of_not_pointer plain]
  exact and_iff_right fine

section Calls

variable {location : Location} {type : QualifiedType} {callee : FunctionId} {f : FunctionDecl}
  {receiver : Expr} {args : List Expr} (look : s.unit.function callee = .ok f)
include look

private theorem Setting.passes_freeCall_iff :
    s.Passes x (.mk location type (.freeCall (some callee) args)) ↔
      args.length = f.params.length ∧ ∀ e ∈ args, s.Passes x e := by
  have plain : ¬ s.CallsOnPointer (.freeCall (some callee) args) := id
  refine (passes_iff_of_not_pointer plain).trans (and_congr_left fun _ => ?_)
  simp [Acceptable, Expr.node, look]

/-- A call on a receiver passes if it is made on a smart pointer, or receiver and arguments pass. -/
theorem Setting.passes_memberCall_iff {isArrow : Bool} :
    s.Passes x (.mk location type (.memberCall (some callee) receiver isArrow args)) ↔
      s.isSafePtr receiver.type = .ok true ∨ s.isSafePtr receiver.type ≠ .ok true
        ∧ s.Passes x receiver ∧ args.length = f.params.length ∧ ∀ e ∈ args, s.Passes x e := by
  by_cases pointer : s.CallsOnPointer (.memberCall (some callee) receiver isArrow args)
  · refine (passes_iff_of_pointer pointer).trans (iff_of_true ?_ (.inl pointer))
    exact ⟨callee, f, rfl, look, .inl pointer⟩
  · refine (passes_iff_of_not_pointer pointer).trans ?_
    have pointer' : s.isSafePtr receiver.type ≠ .ok true := pointer
    simp [Acceptable, CallsOnPointer, Expr.node, Node.carriers, look, pointer', and_left_comm]

/-- A call of an operator on an object passes outright on a smart pointer, and else if the object
and the arguments do. -/
theorem Setting.passes_instanceOperator_iff (isInstance : f.isInstanceMethod = true) :
    s.Passes x (.mk location type (.operatorCall (some callee) (receiver :: args))) ↔
      s.isSafePtr receiver.type = .ok true ∨ s.isSafePtr receiver.type ≠ .ok true
        ∧ s.Passes x receiver ∧ args.length = f.params.length ∧ ∀ e ∈ args, s.Passes x e := by
  have pointer_iff : s.CallsOnPointer (.operatorCall (some callee) (receiver :: args)) ↔
      s.isSafePtr receiver.type = .ok true := by
    simp [CallsOnPointer, look, isInstance]
  by_cases pointer : s.isSafePtr receiver.type = .ok true
  · refine (passes_iff_of_pointer (pointer_iff.mpr pointer)).trans (iff_of_true ?_ (.inl pointer))
    exact ⟨callee, f, rfl, look, .inl (pointer_iff.mpr pointer)⟩
  · have plain := mt pointer_iff.mp pointer
    refine (passes_iff_of_not_pointer plain).trans ?_
    simp [Acceptable, Expr.node, Node.carriers, look, pointer, plain, isInstance, and_left_comm]

private theorem Setting.passes_freeOperator_iff (isFree : f.isInstanceMethod = false) :
    s.Passes x (.mk location type (.operatorCall (some callee) args)) ↔
      args.length = f.params.length ∧ ∀ e ∈ args, s.Passes x e := by
  have plain : ¬ s.CallsOnPointer (.operatorCall (some callee) args) := by
    cases args <;> simp [CallsOnPointer, look, isFree]
  refine (passes_iff_of_not_pointer plain).trans (and_congr_left fun _ => ?_)
  simp [Acceptable, Expr.node, look, plain, isFree]

end Calls

/-- A node that is not acceptable does not pass. -/
theorem Setting.not_passes (bad : ¬ s.Acceptable x e) : False ↔ s.Passes x e :=
  iff_of_false id fun passes => bad (passes e .refl)

private theorem Setting.passes_variable_iff {location : Location} {type : QualifiedType}
    {id : VariableId} :
    s.Passes x (.mk location type (.declRef (.variableRef id))) ↔ s.unit.VariableFlows x id := by
  have plain : ¬ s.CallsOnPointer (.declRef (.variableRef id)) := fun h => h
  refine (passes_iff_of_not_pointer plain).trans ?_
  simp [Acceptable, Expr.node, Node.carriers]

-- ============================================================ the check

/-- A variable flows if it is found to. -/
theorem variableFlows_iff {u : TranslationUnit} (known : x ≠ .unknown) {id : VariableId} :
    u.variableFlows x id = .ok true ↔ u.VariableFlows x id := by
  unfold TranslationUnit.variableFlows TranslationUnit.VariableFlows
  cases look : u.variableDecl id with
  | error fault => exact iff_of_false nofun nofun
  | ok v =>
    simp only [ok_bind, Except.ok.injEq, exists_eq_left']
    cases param : v.isParam with
    | true =>
      -- a parameter never has global storage, so only the extent and the tag count
      have kind : v.kind = .param := by simpa [VariableDecl.isParam] using param
      have notGlobal : v.hasGlobalStorage = false := by simp [VariableDecl.hasGlobalStorage, kind]
      cases x with
      | unknown => exact absurd rfl known
      | localVar target => exact iff_of_true rfl (.inr (.inr (.inl ⟨rfl, nofun⟩)))
      | parameter => exact iff_of_true rfl (.inr (.inr (.inl ⟨rfl, nofun⟩)))
      | object => simp [notGlobal, pure, Except.pure]
    | false =>
      simp only [Bool.false_eq_true, if_false, false_and, false_or, not_false_eq_true, true_and,
        Bool.or_eq_true]
      by_cases shared : v.hasGlobalStorage = true ∨ v.has .mayExtendToThis = true
      · rw [if_pos shared, ← or_assoc]
        exact iff_of_true rfl (.inl shared)
      · rw [if_neg shared, ← or_assoc, or_iff_right shared]
        cases x with
        | localVar target => simp
        | unknown | parameter | object => exact iff_of_false nofun nofun

section Walk

variable {π : Fault → Prop}

private theorem allFlow_decides {l : List Expr}
    (each : ∀ e ∈ l, Decides π (e.flows s x) (s.Passes x e)) :
    Decides π (Expr.allFlow s x l) (∀ e ∈ l, s.Passes x e) := by
  induction l with
  | nil => exact Decides.yes.congr (by simp)
  | cons head tail ih =>
    have first := each head List.mem_cons_self
    have second := ih fun e mem => each e (List.mem_cons_of_mem _ mem)
    unfold Expr.allFlow
    exact (first.and second).congr List.forall_mem_cons.symm

variable (c : s.unit.Consistent)
include c

/-- Arguments and parameters are gone through side by side, and both have to end together. -/
private theorem argsFlow_decides {args : List Expr} {params : List VariableId}
    (inside : ∀ id ∈ params, s.unit.Holds .vars id.index)
    (each : ∀ e ∈ args, Decides π (e.flows s x) (s.Passes x e)) :
    Decides π (Expr.argsFlow s x args params)
      (args.length = params.length ∧ ∀ e ∈ args, s.Passes x e) := by
  induction args generalizing params with
  | nil =>
    cases params with
    | nil => exact Decides.yes.congr (by simp)
    | cons => exact Decides.no.congr (by simp)
  | cons arg args ih =>
    cases params with
    | nil => exact Decides.no.congr (by simp)
    | cons param params =>
      obtain ⟨v, look, -⟩ := (c.variable_ends (inside param List.mem_cons_self)).answer
      have first := each arg List.mem_cons_self
      have second := ih (fun id mem => inside id (List.mem_cons_of_mem _ mem))
        fun e mem => each e (List.mem_cons_of_mem _ mem)
      unfold Expr.argsFlow
      simp only [look, Runs.lift_ok_bind]
      refine (first.and second).congr ?_
      simp only [List.length_cons, Nat.add_right_cancel_iff, List.forall_mem_cons]
      exact and_left_comm

/-- The check of a call on a receiver: the receiver and the arguments pass, or it is a call on a
smart pointer. -/
theorem receiverFlows_decides {receiver : Expr} {args : List Expr} {params : List VariableId}
    (fits : receiver.Fits s.unit) (inside : ∀ id ∈ params, s.unit.Holds .vars id.index)
    (ofReceiver : Decides π (receiver.flows s x) (s.Passes x receiver))
    (each : ∀ e ∈ args, Decides π (e.flows s x) (s.Passes x e)) :
    Decides π (do
        if ← s.isSafePtr receiver.type then return true
        else if ← receiver.flows s x then Expr.argsFlow s x args params
        else return false)
      (s.isSafePtr receiver.type = .ok true ∨ s.isSafePtr receiver.type ≠ .ok true
        ∧ s.Passes x receiver ∧ args.length = params.length ∧ ∀ e ∈ args, s.Passes x e) := by
  obtain ⟨pointer, known, -⟩ := (Setting.isSafePtr_ends c (Expr.fits_iff.mp fits).1).answer
  simp only [known, Runs.lift_ok_bind]
  cases pointer with
  | true => exact Decides.yes.congr (by simp)
  | false => exact (ofReceiver.and (argsFlow_decides c inside each)).congr (by simp)

section Calls

variable {location : Location} {type : QualifiedType} {callee : Option FunctionId}
  (inside : ∀ id, callee = some id → s.unit.Holds .functions id.index)
include inside

private theorem freeCall_decides {args : List Expr}
    (each : ∀ e ∈ args, Decides π (e.flows s x) (s.Passes x e)) :
    Decides π (Node.flows s x location (.freeCall callee args))
      (s.Passes x (.mk location type (.freeCall callee args))) := by
  cases callee with
  | none =>
    refine Decides.no.congr (Setting.not_passes ?_)
    rintro ⟨_, _, unknown, _⟩
    cases unknown
  | some callee =>
    obtain ⟨f, look, fits⟩ := (c.function_ends (inside callee rfl)).answer
    simp only [Node.flows, look, Runs.lift_ok_bind]
    exact (argsFlow_decides c fits.params each).congr (Setting.passes_freeCall_iff look).symm

private theorem memberCall_decides {base : Expr} {isArrow : Bool} {args : List Expr}
    (fitsBase : base.Fits s.unit) (ofBase : Decides π (base.flows s x) (s.Passes x base))
    (each : ∀ e ∈ args, Decides π (e.flows s x) (s.Passes x e)) :
    Decides π (Node.flows s x location (.memberCall callee base isArrow args))
      (s.Passes x (.mk location type (.memberCall callee base isArrow args))) := by
  cases callee with
  | none =>
    refine Decides.no.congr (Setting.not_passes ?_)
    rintro ⟨_, _, unknown, _⟩
    cases unknown
  | some callee =>
    obtain ⟨f, look, fits⟩ := (c.function_ends (inside callee rfl)).answer
    simp only [Node.flows, look, Runs.lift_ok_bind]
    exact (receiverFlows_decides c fitsBase fits.params ofBase each).congr
      (Setting.passes_memberCall_iff look).symm

private theorem operatorCall_decides {args : List Expr} (fitsArgs : ∀ e ∈ args, e.Fits s.unit)
    (each : ∀ e ∈ args, Decides π (e.flows s x) (s.Passes x e)) :
    Decides π (Node.flows s x location (.operatorCall callee args))
      (s.Passes x (.mk location type (.operatorCall callee args))) := by
  cases callee with
  | none =>
    refine Decides.no.congr (Setting.not_passes ?_)
    rintro ⟨_, _, unknown, _⟩
    cases unknown
  | some callee =>
    obtain ⟨f, look, fits⟩ := (c.function_ends (inside callee rfl)).answer
    simp only [Node.flows, look, Runs.lift_ok_bind]
    cases isInstance : f.isInstanceMethod with
    | false =>
      exact (argsFlow_decides c fits.params each).congr
        (Setting.passes_freeOperator_iff look isInstance).symm
    | true =>
      cases args with
      | nil =>
        -- an instance method without a receiver has one argument too few
        refine Decides.complaint.congr (Setting.not_passes ?_)
        simp [Setting.Acceptable, Setting.CallsOnPointer, Expr.node, look, isInstance]
      | cons receiver args =>
        exact (receiverFlows_decides c (fitsArgs receiver List.mem_cons_self) fits.params
          (each receiver List.mem_cons_self) fun e mem => each e (List.mem_cons_of_mem _ mem)).congr
          (Setting.passes_instanceOperator_iff look isInstance).symm

end Calls

/-- The check tells whether every node that can carry the value is acceptable. It may fault only
where the check of a variable may. -/
theorem Expr.flows_decides (known : x ≠ .unknown) (fits : e.Fits s.unit)
    (ofVariable : ∀ id : VariableId, s.unit.Holds .vars id.index →
      Ends π (s.unit.variableFlows x id) fun _ => True) :
    Decides π (e.flows s x) (s.Passes x e) := by
  induction e using Expr.induction_on_parts with
  | step e ih =>
    obtain ⟨-, fitsNode, fitsParts⟩ := Expr.fits_iff.mp fits
    have part (p : Expr) (mem : p ∈ e.node.children) : Decides π (p.flows s x) (s.Passes x p) :=
      ih p mem (fitsParts p mem)
    cases e with
    | mk location type node =>
      have parts (plain : ¬ s.CallsOnPointer node)
          (fine : s.Acceptable x (.mk location type node)) :
          (∀ part ∈ node.carriers, s.Passes x part) ↔ s.Passes x (.mk location type node) :=
        (Setting.passes_iff_parts plain fine).symm
      unfold Expr.flows
      cases node with
      | nullPointer | integer | thisObject =>
        exact Decides.yes.congr (.trans (by simp [Node.carriers]) (parts id trivial))
      | lambda => exact Decides.no.congr (Setting.not_passes id)
      | unsupported => exact Decides.complaint.congr (Setting.not_passes id)
      | declRef target =>
        cases target with
        | variableRef id =>
          refine (Decides.lift (ofVariable id fitsNode)).congr ((variableFlows_iff known).trans ?_)
          exact Setting.passes_variable_iff.symm
        | functionRef => exact Decides.no.congr (Setting.not_passes id)
        | fieldRef => exact Decides.complaint.congr (Setting.not_passes id)
      | member inner | unary _ inner | cast _ inner | paren inner | defaultArgument inner
      | materializeTemporary inner | bindTemporary inner | withCleanups inner =>
        refine (part inner List.mem_cons_self).congr (.trans ?_ (parts id trivial))
        exact List.forall_mem_singleton.symm
      | binary op lhs rhs =>
        have first := part lhs (by simp [Expr.node, Node.children])
        have second := part rhs (by simp [Expr.node, Node.children])
        exact (first.and second).congr (.trans (by simp [Node.carriers]) (parts id trivial))
      | conditional condition thenExpr elseExpr =>
        -- the condition carries no value and is not looked at
        have first := part thenExpr (by simp [Expr.node, Node.children])
        have second := part elseExpr (by simp [Expr.node, Node.children])
        exact (first.and second).congr (.trans (by simp [Node.carriers]) (parts id trivial))
      | construct callee args => exact (allFlow_decides part).congr (parts id trivial)
      | freeCall callee args => exact freeCall_decides c fitsNode part
      | memberCall callee base isArrow args =>
        exact memberCall_decides c fitsNode (fitsParts base List.mem_cons_self)
          (part base List.mem_cons_self) fun e mem => part e (List.mem_cons_of_mem _ mem)
      | operatorCall callee args => exact operatorCall_decides c fitsNode fitsParts part

end Walk

-- ============================================================ the check ends

section Completes

variable {π : Fault → Prop} {stmtRank : StmtId → Nat} (c : s.unit.Consistent)
  (ranked : ¬ π .endless → s.unit.StmtsRanked stmtRank) (inUnit : x.Fits s.unit)
include c ranked inUnit

private theorem variableFlows_ends {id : VariableId} (inside : s.unit.Holds .vars id.index) :
    Ends π (s.unit.variableFlows x id) fun _ => True := by
  refine .bind (c.variable_ends inside) fun v _ => ?_
  split
  · split <;> exact .pure trivial
  · split
    · exact .pure trivial
    · cases x with
      | localVar target =>
        exact TranslationUnit.outlives_ends c ranked inside (inUnit target rfl)
      | unknown | parameter | object => exact .pure trivial

/-- The check of an expression of the unit ends, unless statements stand inside themselves. -/
theorem mayFlow_completes (fits : e.Fits s.unit) : Completes π (s.mayFlow x e) fun _ => True := by
  unfold Setting.mayFlow
  split
  · exact .pure trivial
  · next known =>
    exact (Expr.flows_decides c known fits fun _ => variableFlows_ends c ranked inUnit).completes

end Completes

-- ============================================================ what may flow

/-- A value of the unit may flow into an extent that is known if and only if every node is
acceptable that is reached through the parts that can carry it. The check of a value ends if no
statement stands inside itself. -/
theorem mayFlow_iff_reached_acceptable {u : TranslationUnit}
    (consistent : u.inconsistency? = none) (config : Config) :
    ∃ s, Setting.of u config = .ok s ∧ ∀ (x : Extent) (e : Expr) (voice : Voice),
      x ≠ .unknown → e.Fits u →
      ((∃ voice', (s.mayFlow x e).run voice = .ok (true, voice')) ↔
        ∀ n, ReflTransGen s.Carries e n → s.Acceptable x n)
      ∧ (x.Fits u → u.ParentsFounded →
        ∃ flows voice', (s.mayFlow x e).run voice = .ok (flows, voice')) := by
  have c := TranslationUnit.inconsistency?_eq_none_iff.mp consistent
  obtain ⟨s, setting, rfl, -⟩ := (Setting.of_ends c config).answer
  refine ⟨s, setting, fun x e voice known fits => ⟨?_, fun inUnit founded => ?_⟩⟩
  · unfold Setting.mayFlow
    rw [if_neg known]
    -- every fault is permitted here: a walk that does not end does not accept
    have decides : Decides (fun _ => True) (e.flows s x) (s.Passes x e) :=
      Expr.flows_decides c known fits fun id _ => Ends.always (s.unit.variableFlows x id)
    exact decides.true_iff voice
  · obtain ⟨stmtRank, ranked⟩ := c.exists_stmtsRanked founded
    obtain ⟨flows, voice', run, -⟩ :=
      (mayFlow_completes c (fun _ => ranked) inUnit fits).answer voice
    exact ⟨flows, voice', run⟩

/-- A unit with two nested blocks. A local `outer` is declared in the outer block and a local
`inner` in the inner one, and a smart pointer `owner` is a parameter. -/
def TranslationUnit.nestedBlocks : TranslationUnit where
  files := #[⟨"blocks.cpp", false⟩]
  types := ⟨#[.builtin .int, .pointer ⟨⟨0⟩, false⟩, .record ⟨0⟩]⟩
  scopes := #[
    { name := none, kind := .translationUnit, parent := none, attributes := .empty },
    { name := some "safememory", kind := .nameSpace, parent := some ⟨0⟩, attributes := .empty }]
  records := #[{ RecordDecl.declared "owning_ptr" ⟨1⟩ .unknown with
    templateArgs := [.type ⟨⟨0⟩, false⟩] }]
  functions := #[{ FunctionDecl.declared "get" ⟨1⟩ .unknown .method ⟨⟨1⟩, false⟩ with
    parent := some ⟨0⟩ }]
  vars := #[
    { VariableDecl.declared "outer" ⟨⟨0⟩, false⟩ .unknown .localVar with declStmt := some ⟨0⟩ },
    { VariableDecl.declared "inner" ⟨⟨0⟩, false⟩ .unknown .localVar with declStmt := some ⟨1⟩ },
    .declared "owner" ⟨⟨2⟩, false⟩ .unknown .param]
  statements := #[
    { parent := some ⟨3⟩, location := .unknown, shape := .declare [⟨0⟩] },
    { parent := some ⟨2⟩, location := .unknown, shape := .declare [⟨1⟩] },
    { parent := some ⟨3⟩, location := .unknown, shape := .compound [⟨1⟩] },
    { parent := none, location := .unknown, shape := .compound [⟨0⟩, ⟨2⟩] }]

/-- The value `1 ? &outer : owner.get()`. -/
def Expr.outerOrOwned : Expr :=
  let int : QualifiedType := ⟨⟨0⟩, false⟩
  let pointer : QualifiedType := ⟨⟨1⟩, false⟩
  let name (type : QualifiedType) (slot : Nat) : Expr :=
    .mk .unknown type (.declRef (.variableRef ⟨slot⟩))
  .mk .unknown pointer (.conditional (.mk .unknown int (.integer 1))
    (.mk .unknown pointer (.unary .addressOf (name int 0)))
    (.mk .unknown pointer (.memberCall (some ⟨0⟩) (name ⟨⟨2⟩, false⟩ 2) false [])))

open TranslationUnit in
/-- Whether the address of the outer local, or what a smart pointer gives, may flow into the inner
local is told by the nodes that carry it. -/
theorem outerOrOwned_flows_iff_reached_acceptable :
    nestedBlocks.inconsistency? = none ∧ Expr.outerOrOwned.Fits nestedBlocks
    ∧ (Extent.localVar ⟨1⟩).Fits nestedBlocks ∧ nestedBlocks.ParentsFounded
    ∧ ∃ s, Setting.of nestedBlocks .default = .ok s ∧
      ((∃ voice', (s.mayFlow (.localVar ⟨1⟩) .outerOrOwned).run .silent = .ok (true, voice')) ↔
        ∀ n, ReflTransGen s.Carries .outerOrOwned n → s.Acceptable (.localVar ⟨1⟩) n)
      ∧ ∃ flows voice',
        (s.mayFlow (.localVar ⟨1⟩) .outerOrOwned).run .silent = .ok (flows, voice') := by
  have consistent : nestedBlocks.inconsistency? = none := by decide
  have c := inconsistency?_eq_none_iff.mp consistent
  have resolves : ∀ r ∈ Expr.outerOrOwned.references (.statement 0), nestedBlocks.flaw? r = none :=
    by decide
  have fits : Expr.outerOrOwned.Fits nestedBlocks :=
    fits_of_expr fun r mem => flaw?_eq_none_iff.mp (resolves r mem)
  have inUnit : (Extent.localVar ⟨1⟩).Fits nestedBlocks := by
    intro id same
    cases same
    decide
  have founded := c.parentsFounded (by decide)
  obtain ⟨s, setting, all⟩ := mayFlow_iff_reached_acceptable consistent .default
  obtain ⟨same, ends⟩ := all (.localVar ⟨1⟩) .outerOrOwned .silent nofun fits
  exact ⟨consistent, fits, inUnit, founded, s, setting, same, ends inUnit founded⟩

end SafeDialect
