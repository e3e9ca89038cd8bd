/-
Extents in a consistent unit.

The walk from a local outwards follows the statements around its declaration. It ends if no
statement stands inside itself.
-/
import SafeDialect.Lifetime.Extent
import SafeDialect.Proofs.Program.Founded

namespace SafeDialect

variable {π : Fault → Prop} {u : TranslationUnit}

/-- The variable that an extent names lies in the unit. -/
def Extent.Fits (u : TranslationUnit) (x : Extent) : Prop :=
  ∀ id, x = .localVar id → u.Holds .vars id.index

-- ============================================================ nested blocks

namespace TranslationUnit

variable {stmtRank : StmtId → Nat} (c : u.Consistent)
  (ranked : ¬ π .endless → u.StmtsRanked stmtRank)
include c ranked

/-- The walk to the statements around ends where parents have lower ranks, and may else be
endless. -/
private theorem isAround_ends {outer : StmtId} {steps : Nat} {stmt : Option StmtId}
    (inside : ∀ id, stmt = some id → u.Holds .statements id.index)
    (enough : ¬ π .endless → ∀ id, stmt = some id → stmtRank id < steps) :
    Ends π (u.isAround outer steps stmt) fun _ => True := by
  induction steps generalizing stmt with
  | zero =>
    cases stmt with
    | none => exact .ok trivial
    | some id => exact .exhausted fun strict => enough strict id rfl
  | succ steps ih =>
    cases stmt with
    | none => exact .ok trivial
    | some id =>
      have insideId := inside id rfl
      have here := c.parentStmt_ends (π := π) insideId
      unfold isAround
      split
      · exact .ok trivial
      · cases look : u.parentStmt id with
        | error fault =>
          rw [look] at here
          exact here
        | ok parent =>
          rw [look] at here
          refine ih here fun strict outer' around => ?_
          have falls := (ranked strict).parent id outer' (look.trans (by rw [around]))
          have bound := enough strict id rfl
          omega

/-- Whether one variable outlives another is answered by the walk from where the other is
declared. -/
theorem outlives_ends {source target : VariableId} (inSource : u.Holds .vars source.index)
    (inTarget : u.Holds .vars target.index) : Ends π (u.outlives source target) fun _ => True := by
  refine .bind (c.variable_ends inSource) fun from_ fitsFrom => ?_
  refine .bind (c.variable_ends inTarget) fun to_ fitsTo => ?_
  dsimp only
  split
  · next sourceStmt targetStmt declared declared' =>
    refine .bind (c.parentStmt_ends (fitsFrom.declStmt _ declared)) fun block _ => ?_
    split
    · refine .bind (c.parentStmt_ends (fitsTo.declStmt _ declared')) fun parent insideParent => ?_
      refine isAround_ends c ranked insideParent fun strict id known => ?_
      exact Nat.lt_succ_of_lt ((ranked strict).lt_size id (insideParent id known))
    · exact .pure trivial
  · exact .pure trivial

end TranslationUnit

-- ============================================================ the extent of a place

private theorem VariableDecl.extent_fits {id : VariableId} {v : VariableDecl}
    (inside : u.Holds .vars id.index) : (v.extent id).Fits u := by
  unfold VariableDecl.extent
  intro id' same
  split at same
  · split at same <;> cases same
  · split at same
    · cases same
    · cases same
      exact inside

/-- The extent of a place in the unit names a variable of the unit, if any. -/
theorem Expr.extent_completes (c : u.Consistent) {e : Expr} (fits : e.Fits u) :
    Completes π (e.extent u) (Extent.Fits u) := by
  have known {x : Extent} (notLocal : ∀ id, x ≠ .localVar id) : x.Fits u :=
    fun id same => absurd same (notLocal id)
  induction e using Expr.induction_on_parts with
  | step e ih =>
    obtain ⟨insideType, fitsNode, fitsParts⟩ := Expr.fits_iff.mp fits
    have part {p : Expr} (mem : p ∈ e.node.children) : Completes π (p.extent u) (Extent.Fits u) :=
      ih p mem (fitsParts p mem)
    cases e with
    | mk location type node =>
      unfold Expr.extent
      cases node with
      | paren inner | withCleanups inner | materializeTemporary inner =>
        exact part List.mem_cons_self
      | cast kind operand =>
        cases kind with
        | implicit => exact part List.mem_cons_self
        | _ => exact .pure (known nofun)
      | declRef target =>
        cases target with
        | variableRef id =>
          exact .lift_bind (c.variable_ends fitsNode) fun v _ _ =>
            .pure (VariableDecl.extent_fits fitsNode)
        | functionRef id => exact .pure (known nofun)
        | fieldRef id index => exact .bind .modify fun _ _ => .pure (known nofun)
      | member base name isArrow => exact part List.mem_cons_self
      | thisObject => exact .pure (known nofun)
      | _ => exact .pure (known nofun)

end SafeDialect
