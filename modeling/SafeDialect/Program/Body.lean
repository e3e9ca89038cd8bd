/-
The statements and expressions of a function body, in source order.

The statements are listed by a worklist: take the first pending statement, put its children in
front of the others. This ends because children precede the statement that lists them, so each
step replaces one statement by finitely many earlier ones. A statement that does not come after
all of its children has no finite listing.
-/
import SafeDialect.Program.TranslationUnit

namespace SafeDialect

namespace TranslationUnit

/-- The largest number of children of a statement of the unit. -/
def fanOut (u : TranslationUnit) : Nat :=
  (u.statements.toList.map fun s => s.children.length).foldr max 0

theorem length_children_le_fanOut {u : TranslationUnit} {id : StmtId} {s : Stmt}
    (h : u.statement id = .ok s) : s.children.length ≤ u.fanOut := by
  have mem : s ∈ u.statements.toList := by
    unfold statement entry at h
    split at h
    · next found =>
      cases h
      exact Array.mem_toList_iff.mpr (Array.mem_of_getElem? found)
    · cases h
  unfold fanOut
  generalize u.statements.toList = statements at mem
  induction statements with
  | nil => cases mem
  | cons head tail ih =>
    simp only [List.map_cons, List.foldr_cons]
    rcases List.mem_cons.mp mem with rfl | inTail
    · exact Nat.le_max_left _ _
    · exact Nat.le_trans (ih inTail) (Nat.le_max_right _ _)

/-- The price of pending statements: later ones cost a power more, so that a statement costs more
than all of its children. -/
def price (base : Nat) : (pending : List StmtId) → Nat
  | [] => 0
  | s :: rest => base.pow (s.index + 1) + price base rest

theorem price_append (base : Nat) (first second : List StmtId) :
    price base (first ++ second) = price base first + price base second := by
  induction first with
  | nil => simp [price]
  | cons head tail ih => simp only [List.cons_append, price, ih, Nat.add_assoc]

theorem price_le_of_forall_lt {base bound : Nat} (positive : 0 < base) {pending : List StmtId}
    (earlier : ∀ c ∈ pending, c.index < bound) :
    price base pending ≤ pending.length * base.pow bound := by
  induction pending with
  | nil => simp [price]
  | cons head tail ih =>
    have tailLe := ih fun c mem => earlier c (List.mem_cons_of_mem _ mem)
    have headLe : base.pow (head.index + 1) ≤ base.pow bound :=
      Nat.pow_le_pow_right positive (earlier head List.mem_cons_self)
    simp only [price, List.length_cons, Nat.succ_mul]
    omega

/-- Replacing a statement by its children, all of them earlier, lowers the price. -/
theorem price_children_lt {u : TranslationUnit} {id : StmtId} {s : Stmt}
    (found : u.statement id = .ok s) (earlier : ∀ c ∈ s.children, c.index < id.index)
    (rest : List StmtId) :
    price (u.fanOut + 1) (s.children ++ rest) < price (u.fanOut + 1) (id :: rest) := by
  have childrenLe : price (u.fanOut + 1) s.children
      ≤ s.children.length * (u.fanOut + 1).pow id.index :=
    price_le_of_forall_lt (Nat.succ_pos _) earlier
  have fewChildren : s.children.length * (u.fanOut + 1).pow id.index
      ≤ u.fanOut * (u.fanOut + 1).pow id.index :=
    Nat.mul_le_mul_right _ (length_children_le_fanOut found)
  have positive : 0 < (u.fanOut + 1).pow id.index := Nat.pow_pos (Nat.succ_pos _)
  have split : (u.fanOut + 1).pow (id.index + 1)
      = u.fanOut * (u.fanOut + 1).pow id.index + (u.fanOut + 1).pow id.index := by
    rw [Nat.mul_comm]
    rfl
  rw [price_append, price]
  omega

/-- Lists the pending statements and all below them, parents first. The pending statements are a
stack with its top in front: children that are pushed one by one, the last of them first, end up
before the others in source order, and that is `children ++ rest`. -/
def listing (u : TranslationUnit) : (pending : List StmtId) → Result (List StmtId)
  | [] => .ok []
  | id :: rest =>
    match _found : u.statement id with
    | .error fault => .error fault
    | .ok s =>
      if _earlier : ∀ c ∈ s.children, c.index < id.index then
        match u.listing (s.children ++ rest) with
        | .error fault => .error fault
        | .ok listed => .ok (id :: listed)
      else .error .endless
  termination_by pending => price (u.fanOut + 1) pending
  decreasing_by exact price_children_lt _found _earlier rest

/-- The statements of a function's body, the body itself first. -/
def bodyStmts (u : TranslationUnit) (f : FunctionId) : Result (List StmtId) := do
  let decl ← u.function f
  u.listing decl.body.toList

/-- The initializers of the variables that a statement declares, in order. -/
def initializers (u : TranslationUnit) (s : Stmt) : Result (List Expr) := do
  let declared ← s.declared.mapM u.variableDecl
  return declared.filterMap (·.init)

/-- Every node of a function's body, with those of variable initializers, parents first. -/
def bodyNodes (u : TranslationUnit) (f : FunctionId) : Result (List Expr) := do
  let ids ← u.bodyStmts f
  let perStmt ← ids.mapM fun id => do
    let s ← u.statement id
    let inits ← u.initializers s
    return Expr.nodesOfList (inits ++ s.exprs)
  return perStmt.flatten

end TranslationUnit

end SafeDialect
