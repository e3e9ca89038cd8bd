/-
The rules on flows complete on a consistent unit.

What is looked at under temporaries and wrappers is again a part of the expression, so it fits the
unit as well.
-/
import SafeDialect.Proofs.Rules.Run
import SafeDialect.Rules.Flows

namespace SafeDialect

variable {π : Fault → Prop} {s : Setting}

open Check

/-- What stands under temporaries fits if the expression does. -/
theorem Expr.Fits.withoutTemporaries {u : TranslationUnit} {e : Expr} (fits : e.Fits u) :
    e.withoutTemporaries.Fits u := by
  induction e using Expr.induction_on_parts with
  | step e ih =>
    have fitsParts := (Expr.fits_iff.mp fits).2.2
    have part (p : Expr) (mem : p ∈ e.node.children) : p.withoutTemporaries.Fits u :=
      ih p mem (fitsParts p mem)
    cases e with
    | mk location type node =>
      unfold Expr.withoutTemporaries
      cases node with
      | bindTemporary inner | materializeTemporary inner | withCleanups inner =>
        exact part inner List.mem_cons_self
      | cast kind operand =>
        cases kind with
        | implicit => exact part operand List.mem_cons_self
        | _ => exact fits
      | construct callee args =>
        -- a construction is looked through to its first argument only
        cases args with
        | nil => exact fits
        | cons first rest => exact part first List.mem_cons_self
      | _ => exact fits

/-- The variables that a lambda in the unit captures lie in the unit. -/
theorem Expr.Fits.captures {u : TranslationUnit} {e : Expr} {l : Lambda} (fits : e.Fits u)
    (isLambda : e.node = .lambda l) :
    ∀ c ∈ l.captures, ∀ id, c.kind.captured? = some id → u.Holds .vars id.index := by
  have fitsNode := (Expr.fits_iff.mp fits).2.1
  rw [isLambda] at fitsNode
  exact fitsNode.2

/-- A lambda is told by its node. -/
theorem Node.eq_of_lambda? {node : Node} {l : Lambda} (known : node.lambda? = some l) :
    node = .lambda l := by
  cases node <;> cases known
  rfl

namespace Setting

variable (c : s.unit.Consistent) (g : Grounds π s.unit)
include c g

-- ============================================================ assignments

/-- Whether a value may flow somewhere is decided for expressions that fit. -/
private theorem flowsInto_completes {destination value : Expr} (fitsD : destination.Fits s.unit)
    (fitsV : value.Fits s.unit) : Completes π (s.flowsInto destination value) fun _ => True :=
  speak_completes (.bind (Expr.extent_completes c fitsD) fun _ inUnit =>
    mayFlow_completes c g.stmts inUnit fitsV)

/-- An assignment is looked at by its two sides. -/
private theorem checkAssignment_completes {e : Expr} (fits : e.Fits s.unit) :
    Completes π (s.checkAssignment e) fun _ => True := by
  obtain ⟨insideType, fitsNode, fitsParts⟩ := Expr.fits_iff.mp fits
  unfold checkAssignment
  split
  · next lhs rhs isAssign =>
    rw [isAssign] at fitsParts
    have fitsL : lhs.Fits s.unit := fitsParts lhs (by simp [Node.children])
    have fitsR : rhs.Fits s.unit := fitsParts rhs (by simp [Node.children])
    have isRawPointer : Ends π (s.isRawPointer e.type) fun _ => True :=
      .bind (shape_ends c insideType) fun _ _ => .pure trivial
    refine .lift_bind isRawPointer fun pointer _ _ => ?_
    split
    · exact orError_completes (flowsInto_completes c g fitsL fitsR)
    · exact .pure trivial
  · next callee lhs rhs isCall =>
    rw [isCall] at fitsNode fitsParts
    have fitsL : lhs.Fits s.unit := fitsParts lhs (by simp [Node.children])
    have fitsR : rhs.Fits s.unit := fitsParts rhs (by simp [Node.children])
    have isAssignment : Ends π (s.isAssignment callee) fun _ => True := by
      cases callee with
      | none => exact .pure trivial
      | some callee => exact .bind (c.function_ends (fitsNode callee rfl)) fun _ _ => .pure trivial
    refine .lift_bind isAssignment fun assigns _ _ => ?_
    split
    · refine .bind (verdict_completes c g.toDepths (Expr.fits_iff.mp fitsL).1) fun verdict _ => ?_
      split
      · exact orError_completes (flowsInto_completes c g fitsL fitsR)
      · exact .pure trivial
    · exact .pure trivial
  · exact .pure trivial

/-- The rule on assignments completes. -/
theorem checkAssignments_completes : Completes π s.checkAssignments fun _ => True := by
  refine .lift_bind (userFunctions_ends c) fun fs _ inside => ?_
  refine .bind (.forIn fun f mem _ => ?_) fun _ _ => .pure trivial
  refine .lift_bind (c.bodyNodes_ends (inside f mem)) fun nodes _ fits => ?_
  refine .bind (.forIn fun e mem _ => ?_) fun _ _ => .pure trivial
  exact .bind (checkAssignment_completes c g (fits e mem)) fun _ _ => .pure trivial

-- ============================================================ results

private theorem checkReturn_completes {id : StmtId} (inside : s.unit.Holds .statements id.index) :
    Completes π (s.checkReturn id) fun _ => True := by
  refine .lift_bind (c.statement_ends inside) fun stmt _ fits => ?_
  split
  · next value gives =>
    have fitsValue : value.Fits s.unit :=
      fits.exprs value (by simp [Stmt.exprs, StmtShape.exprs, gives])
    exact orError_completes (speak_completes (mayFlow_completes c g.stmts nofun fitsValue))
  · exact .pure trivial

/-- The rule on results completes. -/
theorem checkReturns_completes : Completes π s.checkReturns fun _ => True := by
  refine .lift_bind (userFunctions_ends c) fun fs _ inside => ?_
  refine .bind (.forIn fun f mem _ => ?_) fun _ _ => .pure trivial
  refine .lift_bind (c.function_ends (inside f mem)) fun decl _ fits => ?_
  refine .bind (verdict_completes c g.toDepths fits.ret) fun verdict _ => ?_
  split
  · refine .lift_bind (c.bodyStmts_ends (inside f mem)) fun stmts _ insideStmts => ?_
    refine .bind (.forIn fun id mem _ => ?_) fun _ _ => .pure trivial
    exact .bind (checkReturn_completes c g (insideStmts id mem)) fun _ _ => .pure trivial
  · exact .pure trivial

-- ============================================================ arguments that are kept

section Kept

variable {ofThis : Bool} {owner : Option RecordId}
  (insideOwner : ∀ id, owner = some id → s.unit.Holds .records id.index)
include insideOwner

/-- A capture by copy is judged by the type of the variable, which is there. -/
private theorem captureComplaint_completes {kind : CaptureKind}
    (inside : ∀ id, kind.captured? = some id → s.unit.Holds .vars id.index) :
    Completes π (s.captureComplaint ofThis owner kind) fun _ => True := by
  cases kind with
  | thisPointer =>
    cases owner with
    | none => exact .pure trivial
    | some id =>
      cases ofThis with
      | true => exact .pure trivial
      | false =>
        exact .lift_bind (derivesFromNode_ends c g.bases (insideOwner id rfl)) fun _ _ _ =>
          .pure trivial
  | byCopy id =>
    refine .lift_bind (c.variable_ends (inside id rfl)) fun v _ fits => ?_
    refine .bind (verdict_completes c g.toDepths fits.type) fun verdict _ => ?_
    split
    · exact .pure trivial
    · exact .pure trivial
  | thisCopy | byReference | array => exact .pure trivial

private theorem checkCaptures_completes {captures : List Capture}
    (inside : ∀ c ∈ captures, ∀ id, c.kind.captured? = some id → s.unit.Holds .vars id.index) :
    Completes π (s.checkCaptures ofThis owner captures) fun _ => True := by
  induction captures with
  | nil => exact .pure trivial
  | cons capture rest ih =>
    unfold checkCaptures
    refine .bind (captureComplaint_completes c g insideOwner (inside capture List.mem_cons_self))
      fun complaint _ => ?_
    cases complaint with
    | some complaint => exact .bind error_completes fun _ _ => .pure trivial
    | none => exact ih fun c mem => inside c (List.mem_cons_of_mem _ mem)

/-- An argument is looked at as a lambda if it is one, or if it is a variable with one for its
initializer. -/
private theorem checkAsLambda_completes {arg : Expr} (fits : arg.Fits s.unit) :
    Completes π (s.checkAsLambda ofThis owner arg) fun _ => True := by
  unfold checkAsLambda
  split
  · next l isLambda =>
    have captures := fits.withoutTemporaries.captures isLambda
    exact .bind (checkCaptures_completes c g insideOwner captures) fun _ _ => .pure trivial
  · next id isName =>
    have insideId : s.unit.Holds .vars id.index := by
      have fitsNode := (Expr.fits_iff.mp fits.withoutTemporaries).2.1
      rw [isName] at fitsNode
      exact fitsNode
    refine .lift_bind (c.variable_ends insideId) fun v _ fitsV => ?_
    split
    · exact .pure trivial
    · next l known =>
      have captures : ∀ c ∈ l.captures, ∀ id, c.kind.captured? = some id →
          s.unit.Holds .vars id.index := by
        obtain ⟨init, isInit, isLambda⟩ := Option.bind_eq_some_iff.mp known
        exact (fitsV.init init isInit).withoutTemporaries.captures (Node.eq_of_lambda? isLambda)
      refine .bind (checkCaptures_completes c g insideOwner captures) fun fine _ => ?_
      split
      · exact .pure trivial
      · exact .bind note_completes fun _ _ => .pure trivial
  · exact .pure trivial

private theorem checkKeptArg_completes {arg : Expr} (fits : arg.Fits s.unit) :
    Completes π (s.checkKeptArg ofThis owner arg) fun _ => True := by
  unfold checkKeptArg
  split
  · exact .pure trivial
  · refine .bind (checkAsLambda_completes c g insideOwner fits) fun isLambda _ => ?_
    split
    · exact .pure trivial
    · split
      · exact orError_completes (speak_completes (mayFlow_completes c g.stmts nofun fits))
      · exact error_completes

/-- Arguments and parameters that are paired are in the unit. -/
private theorem checkKeptArgs_completes {pairs : List (VariableId × Expr)}
    (inside : ∀ p ∈ pairs, s.unit.Holds .vars p.1.index ∧ p.2.Fits s.unit) :
    Completes π (s.checkKeptArgs ofThis owner pairs) fun _ => True := by
  induction pairs with
  | nil => exact .pure trivial
  | cons pair rest ih =>
    obtain ⟨insideParam, fits⟩ := inside pair List.mem_cons_self
    have others := ih fun p mem => inside p (List.mem_cons_of_mem _ mem)
    unfold checkKeptArgs
    refine .lift_bind (c.variable_ends insideParam) fun v _ _ => ?_
    dsimp only
    split
    · exact .bind (checkKeptArg_completes c g insideOwner fits) fun _ _ => others
    · exact others

/-- A call is checked by the parameters of its callee. -/
private theorem checkCall_completes {e : Expr} (fits : e.Fits s.unit) :
    Completes π (s.checkCall owner e) fun _ => True := by
  obtain ⟨-, fitsNode, fitsParts⟩ := Expr.fits_iff.mp fits
  unfold checkCall
  split
  · next callee base isArrow args isCall =>
    rw [isCall] at fitsNode fitsParts
    refine .lift_bind (c.function_ends (fitsNode callee rfl)) fun f _ fitsF => ?_
    refine checkKeptArgs_completes c g insideOwner fun pair mem => ?_
    obtain ⟨param, arg⟩ := pair
    obtain ⟨ofParams, ofArgs⟩ := List.of_mem_zip mem
    exact ⟨fitsF.params param ofParams, fitsParts arg (List.mem_cons_of_mem _ ofArgs)⟩
  · exact .pure trivial

end Kept

/-- The rule on what is kept completes. -/
theorem checkExtensions_completes : Completes π s.checkExtensions fun _ => True := by
  refine .lift_bind (userFunctions_ends c) fun fs _ inside => ?_
  refine .bind (.forIn fun f mem _ => ?_) fun _ _ => .pure trivial
  refine .lift_bind (c.function_ends (inside f mem)) fun decl _ fits => ?_
  refine .lift_bind (c.bodyNodes_ends (inside f mem)) fun nodes _ fitsNodes => ?_
  refine .bind (.forIn fun e mem _ => ?_) fun _ _ => .pure trivial
  exact .bind (checkCall_completes c g fits.parent (fitsNodes e mem)) fun _ _ => .pure trivial

end Setting

end SafeDialect
