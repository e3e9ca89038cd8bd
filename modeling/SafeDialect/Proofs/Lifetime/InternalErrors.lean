/-
What a question about lifetimes says.

A question about a flow stops at the first expression that it does not know. So it makes at most one
internal error, and none if the answer is that the value may flow. `Blames act bad` says so of one
step, and a step that has a bad answer is followed by nothing that says more.
-/
import SafeDialect.Lifetime.Flow
import SafeDialect.Proofs.Outcome
import SafeDialect.Proofs.Program.Lookup

namespace SafeDialect

/-- If a step ends it has said nothing, or it has made one internal error and its answer is bad. -/
def Blames {α : Type} (act : Speak α) (bad : α → Prop) : Prop :=
  ∀ voice, Runs (fun _ => True) act voice fun a after =>
    after = voice ∨ bad a ∧ ∃ location, after = voice.sayInternalError location

namespace Blames

variable {α β : Type} {act : Speak α} {bad : α → Prop}

/-- What says nothing blames nobody. -/
theorem pure {a : α} : Blames (Pure.pure a) bad := fun _ => .pure (.inl rfl)

/-- A complaint comes with a bad answer. -/
theorem complaint {location : Location} {a : α} (h : bad a) :
    Blames (do Speak.internalError location; return a) bad :=
  fun _ => .modify_bind (.pure (.inr ⟨h, location, rfl⟩))

/-- A bad answer ends the question. -/
theorem bind {f : α → Speak β} {last : β → Prop} (first : Blames act bad)
    (next : ∀ a, Blames (f a) last) (stops : ∀ a, bad a → ∃ b, f a = Pure.pure b ∧ last b) :
    Blames (act >>= f) last := by
  intro voice
  refine .bind (first voice) fun a after known => ?_
  rcases known with rfl | ⟨isBad, location, rfl⟩
  · exact next a after
  · obtain ⟨b, ends, isLast⟩ := stops a isBad
    rw [ends]
    exact .pure (.inr ⟨isLast, location, rfl⟩)

/-- Looking something up says nothing. -/
theorem look {x : Result α} {f : α → Speak β} {last : β → Prop} (next : ∀ a, Blames (f a) last) :
    Blames (liftM x >>= f) last :=
  fun voice => .lift_bind (.always x) fun a _ _ => next a voice

/-- Nor does giving what was looked up for an answer. -/
theorem lift {x : Result α} : Blames (liftM x) bad :=
  fun _ => .mono (.lift (.always x)) fun _ _ known => .inl known.2

/-- If the first of two checks has blamed something, the second does not come about. -/
theorem and {first next : Speak Bool} (ofFirst : Blames first (· = false))
    (ofNext : Blames next (· = false)) :
    Blames (do if ← first then next else return false) (· = false) := by
  refine bind ofFirst (fun b => ?_) fun b isBad => ⟨false, by rw [isBad]; rfl, rfl⟩
  cases b with
  | false => exact pure
  | true => exact ofNext

end Blames

-- ============================================================ flows

variable {s : Setting} {x : Extent}

private theorem allFlow_blames {l : List Expr} (each : ∀ e ∈ l, Blames (e.flows s x) (· = false)) :
    Blames (Expr.allFlow s x l) (· = false) := by
  induction l with
  | nil => exact .pure
  | cons head tail ih =>
    unfold Expr.allFlow
    refine .and (each head List.mem_cons_self) (ih fun e mem => ?_)
    exact each e (List.mem_cons_of_mem _ mem)

private theorem argsFlow_blames {args : List Expr} {params : List VariableId}
    (each : ∀ e ∈ args, Blames (e.flows s x) (· = false)) :
    Blames (Expr.argsFlow s x args params) (· = false) := by
  induction args generalizing params with
  | nil => cases params <;> exact .pure
  | cons arg args ih =>
    cases params with
    | nil => exact .pure
    | cons param params =>
      unfold Expr.argsFlow
      refine .look fun _ => .and (each arg List.mem_cons_self) (ih fun e mem => ?_)
      exact each e (List.mem_cons_of_mem _ mem)

private theorem onReceiver_blames {receiver : Expr} {args : List Expr} {params : List VariableId}
    (ofReceiver : Blames (receiver.flows s x) (· = false))
    (each : ∀ e ∈ args, Blames (e.flows s x) (· = false)) :
    Blames (do
      if ← s.isSafePtr receiver.type then return true
      else if ← receiver.flows s x then Expr.argsFlow s x args params
      else return false) (· = false) := by
  refine .look fun isPointer => ?_
  cases isPointer with
  | true => exact .pure
  | false => exact .and ofReceiver (argsFlow_blames each)

/-- An expression does not flow if it or a part of it has been complained about. -/
private theorem Expr.flows_blames (e : Expr) : Blames (e.flows s x) (· = false) := by
  induction e using Expr.induction_on_parts with
  | step e ih =>
    cases e with
    | mk location type node =>
      have part (p : Expr) (mem : p ∈ node.children) : Blames (p.flows s x) (· = false) := ih p mem
      unfold Expr.flows
      cases node with
      | nullPointer | integer | thisObject | lambda => exact .pure
      | unsupported => exact .complaint rfl
      | declRef target =>
        cases target with
        | variableRef id => exact .lift
        | functionRef => exact .pure
        | fieldRef => exact .complaint rfl
      | member inner | unary _ inner | cast _ inner | paren inner | defaultArgument inner
      | materializeTemporary inner | bindTemporary inner | withCleanups inner =>
        exact part inner List.mem_cons_self
      | binary op lhs rhs =>
        exact .and (part lhs (by simp [Node.children])) (part rhs (by simp [Node.children]))
      | conditional condition thenExpr elseExpr =>
        exact .and (part thenExpr (by simp [Node.children]))
          (part elseExpr (by simp [Node.children]))
      | construct callee args => exact allFlow_blames part
      | freeCall callee args =>
        cases callee with
        | none => exact .pure
        | some callee => exact .look fun _ => argsFlow_blames part
      | memberCall callee base isArrow args =>
        cases callee with
        | none => exact .pure
        | some callee =>
          refine .look fun _ => onReceiver_blames (part base List.mem_cons_self) fun e mem => ?_
          exact part e (List.mem_cons_of_mem _ mem)
      | operatorCall callee args =>
        cases callee with
        | none => exact .pure
        | some callee =>
          refine .look fun f => ?_
          cases f.isInstanceMethod with
          | false => exact argsFlow_blames part
          | true =>
            cases args with
            | nil => exact .complaint rfl
            | cons receiver args =>
              refine onReceiver_blames (part receiver List.mem_cons_self) fun e mem => ?_
              exact part e (List.mem_cons_of_mem _ mem)

/-- So a check that has complained has said no. -/
theorem Setting.mayFlow_blames {e : Expr} : Blames (s.mayFlow x e) (· = false) := by
  unfold Setting.mayFlow
  split
  · exact .pure
  · exact e.flows_blames

-- ============================================================ destinations

/-- What is not understood has an unknown extent. -/
theorem Expr.extent_blames {u : TranslationUnit} (e : Expr) :
    Blames (e.extent u) (· = .unknown) := by
  induction e using Expr.induction_on_parts with
  | step e ih =>
    cases e with
    | mk location type node =>
      have part (p : Expr) (mem : p ∈ node.children) : Blames (p.extent u) (· = .unknown) :=
        ih p mem
      unfold Expr.extent
      cases node with
      | paren inner | withCleanups inner | materializeTemporary inner =>
        exact part inner List.mem_cons_self
      | cast kind operand =>
        cases kind with
        | implicit => exact part operand List.mem_cons_self
        | _ => exact .pure
      | declRef target =>
        cases target with
        | variableRef id => exact .look fun _ => .pure
        | functionRef id => exact .pure
        | fieldRef id index => exact .complaint rfl
      | member base name isArrow => exact part base List.mem_cons_self
      | _ => exact .pure

/-- Nothing flows to a destination that is not understood, so the value is not looked at. -/
theorem Setting.flowsTo_blames {destination value : Expr} :
    Blames (do
      let x ← destination.extent s.unit
      s.mayFlow x value) (· = false) := by
  refine .bind destination.extent_blames (fun x => mayFlow_blames) fun x unknown => ?_
  exact ⟨false, if_pos unknown, rfl⟩

end SafeDialect
