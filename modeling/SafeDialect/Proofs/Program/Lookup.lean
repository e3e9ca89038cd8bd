/-
Look-ups in a consistent unit: an index inside its table leads to an entry that fits.

Backward links make the walks along them finite: synonyms end at a canonical type, and the
statements of a body have a listing. Expressions fit if their parts do, so a walk over an expression
stays in the unit as well.
-/
import SafeDialect.Program.Body
import SafeDialect.Proofs.Program.Consistent

namespace SafeDialect

namespace TranslationUnit

variable {u : TranslationUnit} {π : Fault → Prop}

-- ============================================================ entries

/-- Whatever lists the slots of a table lists indices inside it. -/
theorem index_lt_of_mem_slots {α : Type} {mk : Nat → α} (index : α → Nat)
    (index_mk : ∀ slot, index (mk slot) = slot) {size : Nat} {a : α}
    (mem : a ∈ (List.range size).map mk) : index a < size := by
  obtain ⟨slot, inRange, rfl⟩ := List.mem_map.mp mem
  rw [index_mk]
  exact List.mem_range.mp inRange

/-- A slot of a consistent unit is found, and what it holds fits the unit. -/
theorem Consistent.record_ends (c : u.Consistent) {id : RecordId}
    (inside : u.Holds .records id.index) : Ends π (u.record id) fun r => r.Fits u := by
  refine Ends.mono (entry_ends inside) fun r found => ?_
  exact fits_of_record (c.records _ r found)

/-- The same for functions. -/
theorem Consistent.function_ends (c : u.Consistent) {id : FunctionId}
    (inside : u.Holds .functions id.index) : Ends π (u.function id) fun f => f.Fits u := by
  refine Ends.mono (entry_ends inside) fun f found => ?_
  exact fits_of_function (c.functions _ f found)

/-- The same for variables. -/
theorem Consistent.variable_ends (c : u.Consistent) {id : VariableId}
    (inside : u.Holds .vars id.index) : Ends π (u.variableDecl id) fun v => v.Fits u := by
  refine Ends.mono (entry_ends inside) fun v found => ?_
  exact fits_of_variable (c.vars _ v found)

/-- The same for statements, whose children come before their slot. -/
theorem Consistent.statement_ends (c : u.Consistent) {id : StmtId}
    (inside : u.Holds .statements id.index) :
    Ends π (u.statement id) fun s => s.Fits u id.index := by
  refine Ends.mono (entry_ends inside) fun s found => ?_
  exact fits_of_stmt (c.statements _ s found)

/-- The scope around a scope precedes it. -/
theorem Consistent.scope_ends (c : u.Consistent) {id : ScopeId}
    (inside : u.Holds .scopes id.index) :
    Ends π (u.scope id) fun s => ∀ parent, s.parent = some parent →
      u.Holds .scopes parent.index ∧ parent.index < id.index := by
  refine Ends.mono (entry_ends inside) fun s found parent known => ?_
  have resolved := c.scopes _ s found ((Owner.scope id.index).toEarlierScope id.index parent)
    (by simp [Scope.references, known])
  exact ⟨resolved.1, resolved.2 id.index rfl⟩

/-- The parent of a statement is in the unit. -/
theorem Consistent.parentStmt_ends (c : u.Consistent) {id : StmtId}
    (inside : u.Holds .statements id.index) :
    Ends π (u.parentStmt id) fun parent => ∀ p, parent = some p → u.Holds .statements p.index := by
  refine .bind (c.statement_ends inside) fun s fits => ?_
  exact .pure fits.parent

end TranslationUnit

-- ============================================================ types

/-- The types that a layer is made of. -/
def TypeShape.components : TypeShape → List QualifiedType
  | pointer t | lvalueReference t | rvalueReference t | array t _ | synonym _ t => [t]
  | function ret params => ret :: params
  | builtin _ | enum _ | record _ | templateParam .. | dependent _ => []

/-- What a reference refers to is one of its components. -/
theorem TypeShape.mem_components_of_referent {shape : TypeShape} {referent : QualifiedType}
    (known : shape.referent? = some referent) : referent ∈ shape.components := by
  cases shape <;> cases known <;> exact List.mem_cons_self

/-- What a pointer points to is one of its components. -/
theorem TypeShape.mem_components_of_pointee {shape : TypeShape} {pointee : QualifiedType}
    (known : shape.pointee? = some pointee) : pointee ∈ shape.components := by
  cases shape <;> cases known
  exact List.mem_cons_self

/-- Every layer is made of types at earlier slots. -/
def TypeTable.Ordered (t : TypeTable) : Prop :=
  ∀ id shape, t.shape id = .ok shape → ∀ q ∈ shape.components, q.id.index < id.index

/-- There is a layer in every slot. -/
theorem TypeTable.exists_shape {t : TypeTable} {id : TypeId} (inside : id.index < t.size) :
    ∃ shape, t.shape id = .ok shape := by
  have found : Ends (fun _ => False) (t.shape id) _ := entry_ends inside
  obtain ⟨shape, look, -⟩ := found.answer
  exact ⟨shape, look⟩

/-- Following synonyms from a slot takes at most as many steps as there are slots up to it. -/
theorem TypeTable.Ordered.resolve_ends {t : TypeTable} {π : Fault → Prop} (ordered : t.Ordered)
    {steps : Nat} {q : QualifiedType} (inside : q.id.index < t.size)
    (enough : q.id.index < steps) :
    Ends π (t.resolve steps q) fun r => r.id.index ≤ q.id.index
      ∧ ∃ shape, t.shape r.id = .ok shape ∧ shape.isSynonym = false := by
  induction steps generalizing q with
  | zero => omega
  | succ steps ih =>
    unfold TypeTable.resolve
    obtain ⟨shape, look⟩ := TypeTable.exists_shape inside
    rw [look]
    cases shape with
    | synonym name target =>
      -- what a synonym stands for precedes it, so one step less is enough
      have earlier : target.id.index < q.id.index := ordered q.id _ look target List.mem_cons_self
      refine .mono (ih (q := ⟨target.id, q.isConst || target.isConst⟩) (Nat.lt_trans earlier inside)
        (show target.id.index < steps by omega)) fun r known => ?_
      exact ⟨Nat.le_trans known.1 (Nat.le_of_lt earlier), known.2⟩
    | _ => exact .ok ⟨Nat.le_refl _, _, look, rfl⟩

/-- Every slot of the first table is one of the second, which holds the same layer there. -/
def TypeTable.Within (t t' : TypeTable) : Prop :=
  ∀ id shape, t.shape id = .ok shape → t'.shape id = .ok shape

/-- A table lies within itself. -/
theorem TypeTable.Within.refl (t : TypeTable) : t.Within t := fun _ _ look => look

/-- Synonyms that end in a table end at the same type in every table that it lies within, and with
more steps as well. -/
theorem TypeTable.Within.resolve {t t' : TypeTable} (within : t.Within t') {steps more : Nat}
    (le : steps ≤ more) {q r : QualifiedType} (ends : t.resolve steps q = .ok r) :
    t'.resolve more q = .ok r := by
  induction steps generalizing q more with
  | zero => cases ends
  | succ steps ih =>
    obtain ⟨more, rfl⟩ : ∃ k, more = k + 1 := ⟨more - 1, by omega⟩
    unfold TypeTable.resolve at ends ⊢
    split at ends
    · cases ends
    · next look =>
      rw [within q.id _ look]
      exact ih (by omega) ends
    · next notSynonym look =>
      rw [within q.id _ look]
      split
      · next missing => cases missing
      · next same => exact absurd (Except.ok.inj same) (notSynonym _ _)
      · exact ends

/-- The indices of a layer at a slot lie inside their tables, and its components precede it. -/
structure TypeShape.Fits (u : TranslationUnit) (slot : Nat) (shape : TypeShape) : Prop where
  components : ∀ t ∈ shape.components, u.Holds .types t.id.index ∧ t.id.index < slot
  record : ∀ id, shape = .record id → u.Holds .records id.index

namespace TranslationUnit

variable {u : TranslationUnit} {π : Fault → Prop}

private theorem mem_references_of_component {shape : TypeShape} {slot : Nat} {t : QualifiedType}
    (mem : t ∈ shape.components) :
    (Owner.type slot).toEarlierType slot t ∈ shape.references slot := by
  cases shape <;> simp only [TypeShape.components, List.mem_cons, List.not_mem_nil, or_false] at mem
  case function ret params => exact List.mem_map_of_mem (List.mem_cons.mpr mem)
  all_goals
    subst mem
    exact List.mem_cons_self

/-- The layer of a slot is found, and made of what is in the unit before that slot. -/
theorem Consistent.shape_ends (c : u.Consistent) {id : TypeId}
    (inside : u.Holds .types id.index) :
    Ends π (u.types.shape id) fun shape => shape.Fits u id.index := by
  refine Ends.mono (entry_ends inside) fun shape found => ?_
  have all := c.types _ shape found
  constructor
  · intro t mem
    have resolved := all _ (mem_references_of_component mem)
    exact ⟨resolved.1, resolved.2 id.index rfl⟩
  · rintro record rfl
    exact (all ((Owner.type id.index).toRecord record) List.mem_cons_self).1

/-- The types of a consistent unit are made of earlier slots. -/
theorem Consistent.ordered (c : u.Consistent) : u.types.Ordered := by
  intro id shape look q mem
  have inside := (Array.getElem?_eq_some_iff.mp (eq_of_entry look)).1
  have fits := c.shape_ends (π := fun _ => False) inside
  rw [look] at fits
  exact (fits.components q mem).2

/-- Synonyms lead to earlier slots, so as many steps as the slot are enough. -/
theorem Consistent.resolve_ends (c : u.Consistent) {steps : Nat} {t : QualifiedType}
    (inside : u.Holds .types t.id.index) (enough : t.id.index < steps) :
    Ends π (u.types.resolve steps t) fun r => u.Holds .types r.id.index
      ∧ ∃ shape, u.types.shape r.id = .ok shape ∧ shape.isSynonym = false :=
  .mono (c.ordered.resolve_ends inside enough) fun _ known =>
    ⟨Nat.lt_of_le_of_lt known.1 inside, known.2⟩

/-- A type of the unit has a canonical one there. -/
theorem Consistent.canonical_ends (c : u.Consistent) {t : QualifiedType}
    (inside : u.Holds .types t.id.index) :
    Ends π (u.types.canonical t) fun r => u.Holds .types r.id.index
      ∧ ∃ shape, u.types.shape r.id = .ok shape ∧ shape.isSynonym = false :=
  c.resolve_ends inside (Nat.lt_succ_of_lt inside)

/-- A canonical layer is no synonym, and is made of what is in the unit. -/
theorem Consistent.canonicalShape_ends (c : u.Consistent) {t : QualifiedType}
    (inside : u.Holds .types t.id.index) :
    Ends π (u.types.canonicalShape t) fun shape =>
      shape.isSynonym = false ∧ (∀ p ∈ shape.components, u.Holds .types p.id.index)
        ∧ ∀ id, shape = .record id → u.Holds .records id.index := by
  refine .bind (c.canonical_ends inside) ?_
  rintro r ⟨insideR, shape, look, plain⟩
  have fits := c.shape_ends (π := π) insideR
  rw [look] at fits ⊢
  exact .ok ⟨plain, fun p mem => (fits.components p mem).1, fits.record⟩

/-- Following synonyms from where they end stays there. -/
theorem resolve_of_plain {types : TypeTable} {steps : Nat} {t : QualifiedType} {shape : TypeShape}
    (look : types.shape t.id = .ok shape) (plain : shape.isSynonym = false) :
    types.resolve (steps + 1) t = .ok t := by
  unfold TypeTable.resolve
  rw [look]
  cases shape <;> simp_all [TypeShape.isSynonym]

/-- Following synonyms stops only where there are no more. -/
theorem plain_of_resolve {types : TypeTable} {steps : Nat} {t r : QualifiedType}
    (ends : types.resolve steps t = .ok r) :
    ∃ shape, types.shape r.id = .ok shape ∧ shape.isSynonym = false := by
  induction steps generalizing t with
  | zero => cases ends
  | succ steps ih =>
    unfold TypeTable.resolve at ends
    split at ends
    · cases ends
    · exact ih ends
    · next shape notSynonym look =>
      cases ends
      refine ⟨shape, look, ?_⟩
      cases shape <;> simp_all [TypeShape.isSynonym]

/-- A canonical type has the layer of every type that it is the canonical form of. -/
theorem canonicalShape_of_canonical {types : TypeTable} {t r : QualifiedType}
    (ends : types.canonical t = .ok r) : types.canonicalShape r = types.canonicalShape t := by
  obtain ⟨shape, look, plain⟩ := plain_of_resolve ends
  have again : types.canonical r = .ok r := resolve_of_plain look plain
  unfold TypeTable.canonicalShape
  rw [ends, again]

end TranslationUnit

-- ============================================================ expressions

namespace Expr

variable {u : TranslationUnit}

/-- An expression is one of its nodes. -/
theorem mem_nodes_self (e : Expr) : e ∈ e.nodes := by
  cases e
  exact List.mem_cons_self

/-- The nodes of a list are those of its elements. -/
theorem mem_nodesOfList {l : List Expr} {n : Expr} :
    n ∈ Expr.nodesOfList l ↔ ∃ e ∈ l, n ∈ e.nodes := by
  induction l with
  | nil => simp [Expr.nodesOfList]
  | cons head tail ih => simp [Expr.nodesOfList, ih]

/-- What lies below a node lies below one of its direct parts. -/
theorem mem_descendants {node : Node} {n : Expr} :
    n ∈ node.descendants ↔ ∃ e ∈ node.children, n ∈ e.nodes := by
  cases node <;> simp [Node.descendants, Node.children, mem_nodesOfList]

/-- The other nodes are those of its parts. -/
theorem mem_nodes {e n : Expr} :
    n ∈ e.nodes ↔ n = e ∨ ∃ part ∈ e.node.children, n ∈ part.nodes := by
  cases e with
  | mk location type node =>
    rw [Expr.nodes, List.mem_cons, mem_descendants]
    rfl

/-- An expression fits if its own indices do and all direct parts fit. -/
theorem fits_iff {e : Expr} :
    e.Fits u ↔ u.Holds .types e.type.id.index ∧ e.node.Fits u
      ∧ ∀ part ∈ e.node.children, part.Fits u := by
  unfold Expr.Fits
  constructor
  · intro all
    refine ⟨(all e e.mem_nodes_self).1, (all e e.mem_nodes_self).2, fun part mem n below => ?_⟩
    exact all n (mem_nodes.mpr (.inr ⟨part, mem, below⟩))
  · rintro ⟨type, own, parts⟩ n below
    rcases mem_nodes.mp below with rfl | ⟨part, mem, below⟩
    · exact ⟨type, own⟩
    · exact parts part mem n below

end Expr

private theorem Expr.sizeOf_part_lt {e part : Expr} (mem : part ∈ e.node.children) :
    sizeOf part < sizeOf e := by
  cases e with
  | mk location type node =>
    have below : sizeOf part < sizeOf node := by
      cases node <;> simp only [Expr.node, Node.children, List.mem_cons, List.not_mem_nil,
        or_false] at mem
      case memberCall callee base isArrow args =>
        rcases mem with rfl | mem
        · simp only [Node.memberCall.sizeOf_spec]; omega
        · have := List.sizeOf_lt_of_mem mem
          simp only [Node.memberCall.sizeOf_spec]; omega
      case freeCall callee args | operatorCall callee args | construct callee args =>
        have := List.sizeOf_lt_of_mem mem
        simp only [Node.freeCall.sizeOf_spec, Node.operatorCall.sizeOf_spec,
          Node.construct.sizeOf_spec]
        omega
      case binary op lhs rhs =>
        rcases mem with rfl | rfl <;> simp only [Node.binary.sizeOf_spec] <;> omega
      case conditional condition thenExpr elseExpr =>
        rcases mem with rfl | rfl | rfl <;> simp only [Node.conditional.sizeOf_spec] <;> omega
      all_goals
        subst mem
        simp only [Node.member.sizeOf_spec, Node.unary.sizeOf_spec, Node.cast.sizeOf_spec,
          Node.paren.sizeOf_spec, Node.defaultArgument.sizeOf_spec,
          Node.materializeTemporary.sizeOf_spec, Node.bindTemporary.sizeOf_spec,
          Node.withCleanups.sizeOf_spec]
        omega
    simp only [Expr.mk.sizeOf_spec]
    omega

/-- Induction over an expression: what holds of an expression whose direct parts it holds of, holds
of all. -/
theorem Expr.induction_on_parts {motive : Expr → Prop}
    (step : ∀ e, (∀ part ∈ e.node.children, motive part) → motive e) (e : Expr) : motive e := by
  induction h : sizeOf e using Nat.strongRecOn generalizing e with
  | _ n ih =>
    refine step e fun part mem => ?_
    have smaller := Expr.sizeOf_part_lt mem
    exact ih (sizeOf part) (by omega) part rfl

/-- Every node of an expression that fits is an expression that fits. -/
theorem Expr.Fits.node {u : TranslationUnit} {e n : Expr} (fits : e.Fits u) (mem : n ∈ e.nodes) :
    n.Fits u := by
  induction e using Expr.induction_on_parts with
  | step e ih =>
    rcases Expr.mem_nodes.mp mem with rfl | ⟨part, inParts, below⟩
    · exact fits
    · exact ih part inParts ((Expr.fits_iff.mp fits).2.2 part inParts) below

end SafeDialect
