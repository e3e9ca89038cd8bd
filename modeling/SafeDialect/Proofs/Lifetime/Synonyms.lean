/-
Lifetimes do not see synonyms.

How long a place lives is read off declarations and off the statements around them. The one type
that a flow looks at is that of a receiver, for being a smart pointer.
-/
import SafeDialect.Lifetime.Flow
import SafeDialect.Proofs.Setting.Desugar

namespace SafeDialect

variable {κ : QualifiedType → QualifiedType} {u : TranslationUnit}

/-- What follows in a step on a look-up whose result has been changed. -/
theorem map_bind_step {σ α β γ : Type} {x : Result α} {g : α → β} {f : β → StateT σ Result γ} :
    (liftM (x.map g) >>= f) = liftM x >>= fun a => f (g a) := by
  cases x <;> rfl

/-- What an expression is bound to is told by its node and its variables, not by its type. -/
theorem Expr.extent_retype (e : Expr) : (e.retype κ).extent (u.retype κ) = e.extent u := by
  induction e using Expr.induction_on_parts with
  | step e ih =>
    obtain ⟨location, type, node⟩ := e
    cases node with
    | paren inner | withCleanups inner | materializeTemporary inner | member inner =>
      simp only [retype, Node.retype, extent, Node.extent]
      exact ih inner List.mem_cons_self
    | cast kind operand =>
      cases kind with
      | implicit =>
        simp only [retype, Node.retype, extent, Node.extent]
        exact ih operand List.mem_cons_self
      | _ => simp only [retype, Node.retype, extent, Node.extent]
    | declRef target =>
      cases target with
      | variableRef id =>
        simp only [retype, Node.retype, extent, Node.extent, TranslationUnit.variableDecl_retype,
          map_bind_step]
        rfl
      | functionRef id => simp only [retype, Node.retype, extent, Node.extent]
      | fieldRef id index => simp only [retype, Node.retype, extent, Node.extent]
    | _ => simp only [retype, Node.retype, extent, Node.extent]

namespace TranslationUnit

/-- The walk to the statements around takes the same steps. -/
private theorem isAround_retype (outer : StmtId) (steps : Nat) (id? : Option StmtId) :
    (u.retype κ).isAround outer steps id? = u.isAround outer steps id? := by
  induction steps generalizing id? with
  | zero => cases id? <;> rfl
  | succ steps ih =>
    cases id? with
    | none => rfl
    | some id =>
      unfold isAround
      simp only [parentStmt_retype, ih]

/-- Variables outlive each other as they did. -/
private theorem outlives_retype (source target : VariableId) :
    (u.retype κ).outlives source target = u.outlives source target := by
  unfold outlives
  simp only [variableDecl_retype, map_bind_result, parentStmt_retype, isAround_retype]
  rw [show (u.retype κ).statements.size = u.statements.size from Array.size_map]
  rfl

/-- And flow as they did. -/
private theorem variableFlows_retype (x : Extent) (id : VariableId) :
    (u.retype κ).variableFlows x id = u.variableFlows x id := by
  unfold variableFlows
  simp only [variableDecl_retype, map_bind_result, outlives_retype]
  rfl

end TranslationUnit

section Flows

variable {s : Setting} {x : Extent}

/-- The retyped value flows without synonyms as the value does. -/
def Expr.FlowsAlike (s : Setting) (x : Extent) (e : Expr) : Prop :=
  (e.retype s.unit.types.desugar).flows s.desugared x = e.flows s x

private theorem allFlow_desugared {l : List Expr} (each : ∀ e ∈ l, e.FlowsAlike s x) :
    Expr.allFlow s.desugared x (l.map (·.retype s.unit.types.desugar)) = Expr.allFlow s x l := by
  induction l with
  | nil => simp only [List.map_nil, Expr.allFlow]
  | cons head tail ih =>
    simp only [List.map_cons, Expr.allFlow]
    rw [show Expr.flows _ _ _ = _ from each head List.mem_cons_self,
      ih fun e mem => each e (List.mem_cons_of_mem _ mem)]

private theorem argsFlow_desugared {args : List Expr} {params : List VariableId}
    (each : ∀ e ∈ args, e.FlowsAlike s x) :
    Expr.argsFlow s.desugared x (args.map (·.retype s.unit.types.desugar)) params =
      Expr.argsFlow s x args params := by
  induction args generalizing params with
  | nil => cases params <;> simp only [List.map_nil, Expr.argsFlow]
  | cons arg args ih =>
    cases params with
    | nil => simp only [List.map_cons, Expr.argsFlow]
    | cons param params =>
      simp only [List.map_cons, Expr.argsFlow]
      rw [show Expr.flows _ _ _ = _ from each arg List.mem_cons_self,
        ih fun e mem => each e (List.mem_cons_of_mem _ mem),
        Setting.variableDecl_desugared, map_bind_step]

variable (c : s.unit.Consistent)
include c

/-- A call on a receiver: its type is a smart pointer or not, whatever it is called. -/
theorem onReceiver_desugared {receiver : Expr} {args : List Expr} {params : List VariableId}
    (ofReceiver : receiver.FlowsAlike s x) (each : ∀ e ∈ args, e.FlowsAlike s x) :
    (do
      if ← s.desugared.isSafePtr (receiver.retype s.unit.types.desugar).type then return true
      else if ← (receiver.retype s.unit.types.desugar).flows s.desugared x then
        Expr.argsFlow s.desugared x (args.map (·.retype s.unit.types.desugar)) params
      else return false : Speak Bool) =
    (do
      if ← s.isSafePtr receiver.type then return true
      else if ← receiver.flows s x then Expr.argsFlow s x args params
      else return false) := by
  rw [Expr.type_retype, Setting.isSafePtr_congr (Setting.shape_desugar c receiver.type),
    Setting.isSafePtr_desugared c, argsFlow_desugared each,
    show Expr.flows _ _ (receiver.retype _) = _ from ofReceiver]

/-- By induction on the expression: a node and its retyped form go the same way, as smart pointers
are told by name. -/
private theorem Expr.flows_desugared (e : Expr) : e.FlowsAlike s x := by
  induction e using Expr.induction_on_parts with
  | step e ih =>
    obtain ⟨location, type, node⟩ := e
    have part (p : Expr) (mem : p ∈ node.children) : p.FlowsAlike s x := ih p mem
    -- a type is looked at only where there is a receiver; the other cases go by their parts
    unfold FlowsAlike
    cases node with
    | declRef target =>
      simp only [retype, Node.retype, flows, Node.flows]
      cases target with
      | variableRef id =>
        show (liftM (s.desugared.unit.variableFlows x id) : Speak Bool) = _
        rw [show s.desugared.unit.variableFlows x id = _
          from TranslationUnit.variableFlows_retype x id]
        rfl
      | functionRef id => rfl
      | fieldRef id index => rfl
    | member inner | unary _ inner | cast _ inner | paren inner | defaultArgument inner
    | materializeTemporary inner | bindTemporary inner | withCleanups inner =>
      simp only [retype, Node.retype, flows, Node.flows]
      exact part inner List.mem_cons_self
    | binary op lhs rhs =>
      simp only [retype, Node.retype, flows, Node.flows]
      rw [show Expr.flows _ _ (lhs.retype _) = _ from part lhs (by simp [Node.children]),
        show Expr.flows _ _ (rhs.retype _) = _ from part rhs (by simp [Node.children])]
    | conditional condition thenExpr elseExpr =>
      simp only [retype, Node.retype, flows, Node.flows]
      rw [show Expr.flows _ _ (thenExpr.retype _) = _ from part thenExpr (by simp [Node.children]),
        show Expr.flows _ _ (elseExpr.retype _) = _ from part elseExpr (by simp [Node.children])]
    | construct callee args =>
      simp only [retype, Node.retype, flows, Node.flows, retypeList_eq_map]
      exact allFlow_desugared part
    | freeCall callee args =>
      cases callee with
      | none => simp only [retype, Node.retype, flows, Node.flows]
      | some callee =>
        simp only [retype, Node.retype, flows, Node.flows, retypeList_eq_map,
          Setting.function_desugared, map_bind_step]
        exact bind_congr fun f => argsFlow_desugared part
    | memberCall callee base isArrow args =>
      cases callee with
      | none => simp only [retype, Node.retype, flows, Node.flows]
      | some callee =>
        simp only [retype, Node.retype, flows, Node.flows, retypeList_eq_map,
          Setting.function_desugared, map_bind_step]
        exact bind_congr fun f => onReceiver_desugared c (part base List.mem_cons_self) fun e mem =>
          part e (List.mem_cons_of_mem _ mem)
    | operatorCall callee args =>
      cases callee with
      | none => simp only [retype, Node.retype, flows, Node.flows]
      | some callee =>
        simp only [retype, Node.retype, flows, Node.flows, retypeList_eq_map,
          Setting.function_desugared, map_bind_step]
        refine bind_congr fun f => ?_
        show (if f.isInstanceMethod then _ else _ : Speak Bool) = _
        split
        · cases args with
          | nil => simp only [List.map_nil, receiverFlows]
          | cons receiver args =>
            simp only [List.map_cons, receiverFlows]
            exact onReceiver_desugared c (part receiver List.mem_cons_self) fun e mem =>
              part e (List.mem_cons_of_mem _ mem)
        · exact argsFlow_desugared part
    | _ => simp only [retype, Node.retype, flows, Node.flows]

/-- What may flow is no matter of synonyms. -/
theorem Setting.mayFlow_desugared (x : Extent) (e : Expr) :
    s.desugared.mayFlow x (e.retype s.unit.types.desugar) = s.mayFlow x e := by
  unfold mayFlow
  rw [show Expr.flows _ _ (e.retype _) = _ from e.flows_desugared c]

end Flows

end SafeDialect
