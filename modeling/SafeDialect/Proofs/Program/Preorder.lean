/-
A function body is listed in preorder.

The worklist takes one pending statement after the other and puts its children in front. Read from
its end, it is a stack: the top is taken, and the children are pushed in reverse, so that the first
of them is taken next. What it amounts to is a recursion over the children: a statement, and then
what each child amounts to, one after the other. The recursion is over a graph and not over a tree,
since a statement may be listed more than once. Slots fall from a statement to its children, and
that is all that both need to end.
-/
import Mathlib.Data.List.Nodup
import SafeDialect.Proofs.Lifetime.Nesting
import SafeDialect.Proofs.Program.Body
import SafeDialect.Proofs.Program.Parents

namespace SafeDialect

open Relation

namespace TranslationUnit

variable {u : TranslationUnit}

-- ============================================================ the recursion

/-- A statement and what its children amount to, in source order. Children that do not precede the
statement are left out, and a consistent unit has none. -/
def preorder (u : TranslationUnit) (id : StmtId) : List StmtId :=
  match u.statement id with
  | .error _ => []
  | .ok s => id :: s.children.flatMap fun c => if c.index < id.index then u.preorder c else []
  termination_by id.index

/-- A statement of a consistent unit fits it. -/
private theorem Consistent.fits_of_statement (c : u.Consistent) {id : StmtId} {s : Stmt}
    (found : u.statement id = .ok s) : s.Fits u id.index := by
  have fits := c.statement_ends (π := fun _ => False) (holds_of_entry found)
  rwa [found] at fits

/-- In a consistent unit no child is left out. -/
private theorem Consistent.preorder_eq (c : u.Consistent) {id : StmtId} {s : Stmt}
    (found : u.statement id = .ok s) : u.preorder id = id :: s.children.flatMap u.preorder := by
  rw [preorder, found]
  simp only
  congr 1
  apply List.flatMap_congr
  intro child mem
  rw [if_pos ((c.fits_of_statement found).children child mem).2]

/-- The worklist lists what the pending statements amount to, one after the other. -/
theorem Consistent.listing_eq (c : u.Consistent) {pending : List StmtId}
    (inside : ∀ id ∈ pending, u.Holds .statements id.index) :
    u.listing pending = .ok (pending.flatMap u.preorder) := by
  fun_induction u.listing pending with
  | case1 => rfl
  | case2 id rest fault found =>
    have here := c.statement_ends (π := fun _ => False) (inside id List.mem_cons_self)
    rw [found] at here
    exact here.elim
  | case3 id rest s found earlier fault listed ih =>
    rw [ih (c.holds_of_pending inside found)] at listed
    cases listed
  | case4 id rest s found earlier ids listed ih =>
    rw [ih (c.holds_of_pending inside found), Except.ok.injEq] at listed
    rw [← listed, List.flatMap_append, List.flatMap_cons, c.preorder_eq found, List.cons_append]
  | case5 id rest s found late =>
    exact absurd (fun child mem => ((c.fits_of_statement found).children child mem).2) late

private theorem Consistent.bodyStmts_eq (c : u.Consistent) {f : FunctionId} {decl : FunctionDecl}
    (found : u.function f = .ok decl) :
    u.bodyStmts f = .ok (decl.body.toList.flatMap u.preorder) := by
  have fits := c.function_ends (π := fun _ => False) (holds_of_entry found)
  rw [found] at fits
  rw [bodyStmts, found, ok_bind]
  apply c.listing_eq
  intro id mem
  exact fits.body id (Option.mem_toList.mp mem)

-- ============================================================ the stack

/-- One turn of the loop over a stack whose top stands last, with what has been listed so far: the
top is taken and listed, and its children are pushed in reverse. -/
def Pops (u : TranslationUnit) (before after : List StmtId × List StmtId) : Prop :=
  ∃ id s, before.1.getLast? = some id ∧ u.statement id = .ok s
    ∧ after = (before.1.dropLast ++ s.children.reverse, before.2 ++ [id])

/-- The first pending statement is the top of the stack, and children in front of the others are
children that have been pushed in reverse. -/
theorem pops_of_statement {id : StmtId} {s : Stmt} (found : u.statement id = .ok s)
    (rest listed : List StmtId) :
    u.Pops ((id :: rest).reverse, listed) ((s.children ++ rest).reverse, listed ++ [id]) := by
  refine ⟨id, s, List.getLast?_reverse, found, ?_⟩
  rw [List.dropLast_reverse, List.tail_cons, List.reverse_append]

/-- A turn is determined by the stack. -/
theorem pops_rightUnique : Relator.RightUnique u.Pops := by
  rintro before after after' ⟨id, s, top, found, rfl⟩ ⟨id', s', top', found', rfl⟩
  cases top.symm.trans top'
  cases found.symm.trans found'
  rfl

/-- With an empty stack the loop has come to its end. -/
theorem eq_of_pops_from_nil {listed : List StmtId} {after : List StmtId × List StmtId}
    (run : ReflTransGen u.Pops ([], listed) after) : after = ([], listed) := by
  cases run.cases_head with
  | inl same => exact same.symm
  | inr first =>
    obtain ⟨_, ⟨id, s, top, -⟩, -⟩ := first
    cases top

/-- What the worklist lists, the loop over the stack lists turn by turn. -/
theorem pops_of_listing {pending ids : List StmtId} (listing : u.listing pending = .ok ids)
    (listed : List StmtId) :
    ReflTransGen u.Pops (pending.reverse, listed) ([], listed ++ ids) := by
  fun_induction u.listing pending generalizing ids listed with
  | case1 =>
    cases listing
    rw [List.append_nil]
    exact .refl
  | case4 id rest s found earlier below isBelow ih =>
    cases listing
    have later := ih isBelow (listed ++ [id])
    rw [List.append_assoc, List.singleton_append] at later
    exact .head (pops_of_statement found rest listed) later
  | case2 | case3 | case5 => cases listing

/-- The loop over the stack ends with what the worklist lists, and with nothing else. -/
theorem pops_iff_of_listing {pending ids : List StmtId} (listing : u.listing pending = .ok ids)
    {listed : List StmtId} :
    ReflTransGen u.Pops (pending.reverse, []) ([], listed) ↔ listed = ids := by
  have run : ReflTransGen u.Pops (pending.reverse, []) ([], ids) := pops_of_listing listing []
  constructor
  · intro run'
    cases ReflTransGen.total_of_right_unique pops_rightUnique run run' with
    | inl further => exact (Prod.mk.inj (eq_of_pops_from_nil further)).2
    | inr further => exact (Prod.mk.inj (eq_of_pops_from_nil further)).2.symm
  · rintro rfl
    exact run

-- ============================================================ each statement once

/-- What is listed is what a chain of children leads to. -/
theorem Consistent.mem_preorder_iff (c : u.Consistent) {id other : StmtId}
    (inside : u.Holds .statements id.index) :
    other ∈ u.preorder id ↔ ReflTransGen u.Lists id other := by
  induction slot : id.index using Nat.strongRecOn generalizing id with
  | _ n ih =>
    obtain ⟨s, found, fits⟩ := (c.statement_ends (π := fun _ => False) inside).answer
    have below (child : StmtId) (mem : child ∈ s.children) :
        other ∈ u.preorder child ↔ ReflTransGen u.Lists child other := by
      obtain ⟨insideChild, earlier⟩ := fits.children child mem
      exact ih child.index (slot ▸ earlier) insideChild rfl
    rw [c.preorder_eq found, List.mem_cons, List.mem_flatMap, ReflTransGen.cases_head_iff, eq_comm]
    apply or_congr Iff.rfl
    constructor
    · intro ⟨child, mem, listed⟩
      exact ⟨child, ⟨s, found, mem⟩, (below child mem).mp listed⟩
    · intro ⟨child, ⟨s', found', mem⟩, chain⟩
      cases found.symm.trans found'
      exact ⟨child, mem, (below child mem).mpr chain⟩

/-- Below a statement no statement is listed twice, neither by one statement nor by two. -/
structure ListsOnceBelow (u : TranslationUnit) (root : StmtId) : Prop where
  byOne : ∀ id s, ReflTransGen u.Lists root id → u.statement id = .ok s → s.children.Nodup
  byTwo : ∀ outer outer' inner, ReflTransGen u.Lists root outer → ReflTransGen u.Lists root outer' →
    u.Lists outer inner → u.Lists outer' inner → outer = outer'

/-- What holds of all statements holds of those below one. -/
theorem ListsOnce.below (once : u.ListsOnce) (root : StmtId) : u.ListsOnceBelow root := by
  constructor
  · intro id s _ found
    have mem := Array.mem_toList_iff.mpr (Array.mem_of_getElem? (eq_of_entry found))
    exact (List.nodup_flatMap.mp once).1 s mem
  · intro outer outer' inner _ _ lists lists'
    exact once.unique lists lists'

private theorem Consistent.index_le_of_chain (c : u.Consistent) {outer inner : StmtId}
    (chain : ReflTransGen u.Lists outer inner) : inner.index ≤ outer.index := by
  induction chain with
  | refl => exact Nat.le_refl _
  | tail _ lists ih =>
    have falls := c.index_lt_of_lists lists
    omega

/-- Where statements are listed once, two statements above a third lie above one another. -/
theorem ListsOnceBelow.comparable {root first second other : StmtId} (once : u.ListsOnceBelow root)
    (belowFirst : ReflTransGen u.Lists root first) (belowSecond : ReflTransGen u.Lists root second)
    (chain : ReflTransGen u.Lists first other) (chain' : ReflTransGen u.Lists second other) :
    ReflTransGen u.Lists first second ∨ ReflTransGen u.Lists second first := by
  induction chain with
  | refl => exact .inr chain'
  | @tail above other chain lists ih =>
    rcases ReflTransGen.cases_tail chain' with same | ⟨above', chain', lists'⟩
    · rw [← same]
      exact .inl (.tail chain lists)
    · -- both chains come to the last statement through the one that lists it
      have one := once.byTwo above above' other (belowFirst.trans chain) (belowSecond.trans chain')
        lists lists'
      rw [← one] at chain'
      exact ih chain'

/-- Of two children of a statement none lies above the other. -/
theorem ListsOnceBelow.not_chain_of_siblings (c : u.Consistent) {root id first second : StmtId}
    (once : u.ListsOnceBelow root) (below : ReflTransGen u.Lists root id)
    (lists : u.Lists id first) (lists' : u.Lists id second) (different : first ≠ second) :
    ¬ ReflTransGen u.Lists first second := by
  intro chain
  rcases ReflTransGen.cases_tail chain with same | ⟨above, chain, listsAbove⟩
  · exact different same.symm
  · have belowFirst : ReflTransGen u.Lists root first := below.tail lists
    have one := once.byTwo above id second (belowFirst.trans chain) below listsAbove lists'
    rw [one] at chain
    have rises := c.index_le_of_chain chain
    have falls := c.index_lt_of_lists lists
    omega

/-- Below a statement that lists each once, what two children amount to has nothing in common: a
statement in both would be listed twice on the way. -/
private theorem Consistent.nodup_preorder (c : u.Consistent) {root id : StmtId}
    (once : u.ListsOnceBelow root) (below : ReflTransGen u.Lists root id)
    (inside : u.Holds .statements id.index) : (u.preorder id).Nodup := by
  induction slot : id.index using Nat.strongRecOn generalizing id with
  | _ n ih =>
    obtain ⟨s, found, fits⟩ := (c.statement_ends (π := fun _ => False) inside).answer
    have lists (child : StmtId) (mem : child ∈ s.children) : u.Lists id child := ⟨s, found, mem⟩
    rw [c.preorder_eq found, List.nodup_cons, List.nodup_flatMap]
    refine ⟨?_, ?_, ?_⟩
    · -- what stands below a statement stands before it in the table
      intro mem
      obtain ⟨child, mem, listed⟩ := List.mem_flatMap.mp mem
      obtain ⟨insideChild, earlier⟩ := fits.children child mem
      have rises := c.index_le_of_chain ((c.mem_preorder_iff insideChild).mp listed)
      omega
    · intro child mem
      obtain ⟨insideChild, earlier⟩ := fits.children child mem
      exact ih child.index (slot ▸ earlier) (below.tail (lists child mem)) insideChild rfl
    · apply (once.byOne id s below found).pairwise_of_forall_ne
      intro first mem second mem' different other listed listed'
      have chain := (c.mem_preorder_iff (fits.children first mem).1).mp listed
      have chain' := (c.mem_preorder_iff (fits.children second mem').1).mp listed'
      rcases once.comparable (below.tail (lists first mem)) (below.tail (lists second mem'))
        chain chain' with above | above
      · exact once.not_chain_of_siblings c below (lists first mem) (lists second mem') different
          above
      · exact once.not_chain_of_siblings c below (lists second mem') (lists first mem)
          different.symm above

end TranslationUnit

-- ============================================================ expressions

namespace Expr

private theorem nodesOfList_eq_flatMap (l : List Expr) :
    Expr.nodesOfList l = l.flatMap Expr.nodes := by
  induction l with
  | nil => simp [Expr.nodesOfList]
  | cons head tail ih => rw [Expr.nodesOfList, ih, List.flatMap_cons]

/-- An expression, and then the nodes of its direct parts, one part after the other. -/
theorem nodes_eq_cons_flatMap (e : Expr) :
    e.nodes = e :: e.node.children.flatMap Expr.nodes := by
  cases e with
  | mk location type node =>
    rw [Expr.nodes, Expr.node]
    cases node <;> simp [Node.descendants, Node.children, nodesOfList_eq_flatMap]

end Expr

/-- A mapping whose every answer is known gives all of them. -/
theorem mapM_eq_ok {α β : Type} {f : α → Result β} {g : α → β} {l : List α}
    (each : ∀ a ∈ l, f a = .ok (g a)) : l.mapM f = .ok (l.map g) := by
  induction l with
  | nil => rfl
  | cons head tail ih =>
    rw [List.mapM_cons, each head List.mem_cons_self, ok_bind,
      ih fun a mem => each a (List.mem_cons_of_mem _ mem)]
    rfl

namespace TranslationUnit

variable {u : TranslationUnit}

/-- The expressions at a statement: the initializers of the variables that it declares, and its
own. -/
def exprsAt (u : TranslationUnit) (id : StmtId) : List Expr :=
  match u.statements[id.index]? with
  | none => []
  | some s => s.declared.filterMap (fun v => u.vars[v.index]?.bind (·.init)) ++ s.exprs

/-- Initializers of what a statement declares are looked up one by one. -/
private theorem Consistent.initializers_eq (c : u.Consistent) {id : StmtId} {s : Stmt}
    (found : u.statement id = .ok s) :
    u.initializers s = .ok (s.declared.filterMap fun v => u.vars[v.index]?.bind (·.init)) := by
  have inside := (c.fits_of_statement found).declared
  unfold initializers
  generalize s.declared = declared at inside
  induction declared with
  | nil => rfl
  | cons v rest ih =>
    obtain ⟨decl, look, -⟩ := (c.variable_ends (π := fun _ => False)
      (inside v List.mem_cons_self)).answer
    have others := ih fun id mem => inside id (List.mem_cons_of_mem _ mem)
    obtain ⟨decls, looks, same⟩ := bind_eq_ok.mp others
    rw [List.mapM_cons, look, ok_bind, looks, ok_bind, List.filterMap_cons, eq_of_entry look,
      Option.bind_some, ← Except.ok.inj same]
    show Except.ok ((decl :: decls).filterMap (·.init)) = _
    rw [List.filterMap_cons]

/-- Every statement of a body contributes the nodes of its expressions. -/
theorem Consistent.bodyNodes_eq (c : u.Consistent) {f : FunctionId} {decl : FunctionDecl}
    (found : u.function f = .ok decl) :
    u.bodyNodes f =
      .ok (((decl.body.toList.flatMap u.preorder).flatMap u.exprsAt).flatMap Expr.nodes) := by
  have ends := c.bodyStmts_ends (π := fun _ => False) (holds_of_entry found)
  rw [c.bodyStmts_eq found] at ends
  rw [bodyNodes, c.bodyStmts_eq found, ok_bind,
    mapM_eq_ok (g := fun id => (u.exprsAt id).flatMap Expr.nodes)]
  · rw [ok_bind, List.flatMap_assoc, ← List.flatMap_def]
    rfl
  · intro id mem
    obtain ⟨s, look, -⟩ := (c.statement_ends (π := fun _ => False) (ends id mem)).answer
    rw [look, ok_bind, c.initializers_eq look, ok_bind, Expr.nodesOfList_eq_flatMap, exprsAt,
      eq_of_entry look]
    rfl

/-- The worklist of a body comes to its end and lists the body in preorder: a statement, then what
its children amount to, in source order. The loop that takes the top of a stack and pushes children
in reverse comes to its end with the same list, and with no other. It lists what the body is made
of, and each statement once if none is listed twice. The nodes of the body are those of the
initializers and expressions in this order, each expression before its parts. -/
theorem body_in_preorder (consistent : u.inconsistency? = none) {f : FunctionId}
    {decl : FunctionDecl} (found : u.function f = .ok decl) :
    (∀ id s, u.statement id = .ok s → u.preorder id = id :: s.children.flatMap u.preorder)
    ∧ u.bodyStmts f = .ok (decl.body.toList.flatMap u.preorder)
    ∧ (∀ listed, ReflTransGen u.Pops (decl.body.toList, []) ([], listed)
      ↔ listed = decl.body.toList.flatMap u.preorder)
    ∧ (∀ root, decl.body = some root →
      (∀ id, id ∈ u.preorder root ↔ ReflTransGen u.Lists root id)
      ∧ (u.ListsOnceBelow root →
        ∀ id, ReflTransGen u.Lists root id → (u.preorder root).count id = 1))
    ∧ (∀ e : Expr, e.nodes = e :: e.node.children.flatMap Expr.nodes)
    ∧ u.bodyNodes f =
      .ok (((decl.body.toList.flatMap u.preorder).flatMap u.exprsAt).flatMap Expr.nodes) := by
  have c := inconsistency?_eq_none_iff.mp consistent
  have listed := c.bodyStmts_eq found
  refine ⟨fun id s look => c.preorder_eq look, listed, fun ids => ?_, ?_,
    Expr.nodes_eq_cons_flatMap, c.bodyNodes_eq found⟩
  · rw [bodyStmts, found, ok_bind] at listed
    have single : decl.body.toList.reverse = decl.body.toList := by
      cases decl.body <;> rfl
    rw [← pops_iff_of_listing listed, single]
  intro root isBody
  have fits := c.function_ends (π := fun _ => False) (holds_of_entry found)
  rw [found] at fits
  have inside := fits.body root isBody
  refine ⟨fun id => c.mem_preorder_iff inside, fun once id below => ?_⟩
  exact List.count_eq_one_of_mem (c.nodup_preorder once .refl inside)
    ((c.mem_preorder_iff inside).mpr below)

/-- A function `countdown` whose body declares a variable with an initializer and then runs a loop
over a block with one expression. -/
def countdown : TranslationUnit where
  files := #[⟨"main.cpp", false⟩]
  types := ⟨#[.builtin .int]⟩
  scopes := #[{ name := none, kind := .translationUnit, parent := none, attributes := .empty }]
  records := #[]
  functions := #[
    { FunctionDecl.declared "countdown" ⟨0⟩ .unknown .free ⟨⟨0⟩, false⟩ with body := some ⟨4⟩ }]
  vars := #[
    { VariableDecl.declared "n" ⟨⟨0⟩, false⟩ .unknown .localVar with
      init := some (.mk .unknown ⟨⟨0⟩, false⟩ (.integer 9)) }]
  statements := #[
    ⟨some ⟨4⟩, .unknown, .declare [⟨0⟩]⟩,
    ⟨some ⟨2⟩, .unknown, .evaluate (.mk .unknown ⟨⟨0⟩, false⟩ (.unary .preDecrement counter))⟩,
    ⟨some ⟨3⟩, .unknown, .compound [⟨1⟩]⟩,
    ⟨some ⟨4⟩, .unknown, .whileLoop counter ⟨2⟩⟩,
    ⟨none, .unknown, .compound [⟨0⟩, ⟨3⟩]⟩]
where
  counter : Expr := .mk .unknown ⟨⟨0⟩, false⟩ (.declRef (.variableRef ⟨0⟩))

/-- The block of the loop comes after the loop and before the expression in it. -/
theorem countdown_in_preorder : countdown.inconsistency? = none ∧ countdown.ListsOnceBelow ⟨4⟩
    ∧ countdown.bodyStmts ⟨0⟩ = .ok [⟨4⟩, ⟨0⟩, ⟨3⟩, ⟨2⟩, ⟨1⟩]
    ∧ ReflTransGen countdown.Pops ([⟨4⟩], []) ([], [⟨4⟩, ⟨0⟩, ⟨3⟩, ⟨2⟩, ⟨1⟩])
    ∧ (countdown.preorder ⟨4⟩).count ⟨4⟩ = 1
    ∧ countdown.bodyNodes ⟨0⟩ = .ok [.mk .unknown ⟨⟨0⟩, false⟩ (.integer 9), countdown.counter,
      .mk .unknown ⟨⟨0⟩, false⟩ (.unary .preDecrement countdown.counter),
      countdown.counter] := by
  have consistent : countdown.inconsistency? = none := by decide
  have once : countdown.ListsOnceBelow ⟨4⟩ := ListsOnce.below (by decide) _
  obtain ⟨preorder_eq, stmts, loops, bodies, -, nodes⟩ := body_in_preorder consistent (f := ⟨0⟩) rfl
  have declaration : countdown.preorder ⟨0⟩ = [⟨0⟩] := preorder_eq ⟨0⟩ _ rfl
  have step : countdown.preorder ⟨1⟩ = [⟨1⟩] := preorder_eq ⟨1⟩ _ rfl
  have block : countdown.preorder ⟨2⟩ = ⟨2⟩ :: [⟨1⟩].flatMap countdown.preorder :=
    preorder_eq ⟨2⟩ _ rfl
  have loop : countdown.preorder ⟨3⟩ = ⟨3⟩ :: [⟨2⟩].flatMap countdown.preorder :=
    preorder_eq ⟨3⟩ _ rfl
  have body : countdown.preorder ⟨4⟩ = ⟨4⟩ :: [⟨0⟩, ⟨3⟩].flatMap countdown.preorder :=
    preorder_eq ⟨4⟩ _ rfl
  have listed : [(⟨4⟩ : StmtId)].flatMap countdown.preorder = [⟨4⟩, ⟨0⟩, ⟨3⟩, ⟨2⟩, ⟨1⟩] := by
    simp [body, declaration, loop, block, step]
  refine ⟨consistent, once, stmts.trans (congrArg Except.ok listed), (loops _).mpr listed.symm,
    (bodies ⟨4⟩ rfl).2 once ⟨4⟩ .refl, nodes.trans (congrArg Except.ok ?_)⟩
  show ((([⟨4⟩] : List StmtId).flatMap countdown.preorder).flatMap countdown.exprsAt).flatMap
    Expr.nodes = _
  rw [listed]
  rfl

end TranslationUnit

end SafeDialect
