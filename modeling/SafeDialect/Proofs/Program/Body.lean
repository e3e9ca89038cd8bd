/-
Function bodies of a consistent unit: they have a listing, and all that is listed fits.
-/
import SafeDialect.Proofs.Program.Lookup

namespace SafeDialect

namespace TranslationUnit

variable {u : TranslationUnit} {π : Fault → Prop}

/-- What is pending after a statement has been listed lies inside the table. -/
theorem Consistent.holds_of_pending (c : u.Consistent) {id : StmtId} {rest : List StmtId} {s : Stmt}
    (inside : ∀ p ∈ id :: rest, u.Holds .statements p.index) (found : u.statement id = .ok s) :
    ∀ child ∈ s.children ++ rest, u.Holds .statements child.index := by
  have fits := c.statement_ends (π := fun _ => False) (inside id List.mem_cons_self)
  rw [found] at fits
  intro child mem
  rcases List.mem_append.mp mem with below | after
  · exact (fits.children child below).1
  · exact inside child (List.mem_cons_of_mem _ after)

/-- Children precede the statement that lists them, so the worklist runs empty. -/
theorem Consistent.listing_ends (c : u.Consistent) {pending : List StmtId}
    (inside : ∀ id ∈ pending, u.Holds .statements id.index) :
    Ends π (u.listing pending) fun ids => ∀ id ∈ ids, u.Holds .statements id.index := by
  fun_induction u.listing pending with
  | case1 => exact .ok (by simp)
  | case2 id rest fault found =>
    have here := c.statement_ends (π := π) (inside id List.mem_cons_self)
    rw [found] at here
    exact here
  | case3 id rest s found earlier fault listed ih =>
    rw [listed] at ih
    exact ih (c.holds_of_pending inside found)
  | case4 id rest s found earlier ids listed ih =>
    rw [listed] at ih
    have below : ∀ id ∈ ids, u.Holds .statements id.index := ih (c.holds_of_pending inside found)
    intro child mem
    rcases List.mem_cons.mp mem with rfl | mem
    · exact inside child List.mem_cons_self
    · exact below child mem
  | case5 id rest s found late =>
    -- the case of a child that does not precede its parent, which no consistent unit has
    have fits := c.statement_ends (π := π) (inside id List.mem_cons_self)
    rw [found] at fits
    exact absurd (fun child mem => (fits.children child mem).2) late

/-- A body is a statement of the unit, and so is all below it. -/
theorem Consistent.bodyStmts_ends (c : u.Consistent) {f : FunctionId}
    (inside : u.Holds .functions f.index) :
    Ends π (u.bodyStmts f) fun ids => ∀ id ∈ ids, u.Holds .statements id.index := by
  refine .bind (c.function_ends inside) fun decl fits => ?_
  refine c.listing_ends fun id mem => ?_
  exact fits.body id (Option.mem_toList.mp mem)

/-- What a statement declares is in the unit, and so are the initializers. -/
private theorem Consistent.initializers_ends (c : u.Consistent) {slot : Nat} {s : Stmt}
    (fits : s.Fits u slot) : Ends π (u.initializers s) fun inits => ∀ e ∈ inits, e.Fits u := by
  refine .bind (ends_mapM (·.Fits u) fun id mem => c.variable_ends (fits.declared id mem)) ?_
  intro declared allFit
  refine .pure fun e mem => ?_
  obtain ⟨v, ofDeclared, known⟩ := List.mem_filterMap.mp mem
  exact (allFit v ofDeclared).init e known

/-- Every node of a body is an expression that fits. -/
theorem Consistent.bodyNodes_ends (c : u.Consistent) {f : FunctionId}
    (inside : u.Holds .functions f.index) :
    Ends π (u.bodyNodes f) fun nodes => ∀ e ∈ nodes, e.Fits u := by
  refine .bind (c.bodyStmts_ends inside) fun ids insideIds => ?_
  refine .bind (ends_mapM (fun nodes => ∀ e ∈ nodes, e.Fits u) fun id mem => ?_)
    fun perStmt allFit => ?_
  · refine .bind (c.statement_ends (insideIds id mem)) fun s fits => ?_
    refine .bind (c.initializers_ends fits) fun inits initsFit => ?_
    refine .pure fun n ofStmt => ?_
    obtain ⟨e, ofExprs, below⟩ := Expr.mem_nodesOfList.mp ofStmt
    rcases List.mem_append.mp ofExprs with ofInits | own
    · exact (initsFit e ofInits).node below
    · exact (fits.exprs e own).node below
  · refine .pure fun e mem => ?_
    obtain ⟨nodes, ofStmts, mem⟩ := List.mem_flatten.mp mem
    exact allFit nodes ofStmts e mem

end TranslationUnit

end SafeDialect
