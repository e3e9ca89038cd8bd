/-
What a consistent unit promises about its entries.

`inconsistency?` looks at a flat list of references. `Consistent` says the same entry by entry, and
the `Fits` predicates say it in the words of each kind of declaration: every index that a record, a
function, a variable, a statement or an expression holds lies inside its table. Look-ups of indices
inside their tables give entries that fit, so a walk along references never leaves the tables.
-/
import SafeDialect.Program.Consistency
import SafeDialect.Proofs.Outcome

namespace SafeDialect

namespace TranslationUnit

/-- An index lies inside a table. -/
def Holds (u : TranslationUnit) (table : Table) (index : Nat) : Prop := index < u.tableSize table

instance {u : TranslationUnit} {table : Table} {index : Nat} : Decidable (u.Holds table index) :=
  inferInstanceAs (Decidable (index < u.tableSize table))

/-- A reference stays in its table and, where it has to, before the slot that makes it. -/
def Resolves (u : TranslationUnit) (r : Reference) : Prop :=
  u.Holds r.table r.index ∧ ∀ slot, r.before = some slot → r.index < slot

/-- A link that need not go backwards resolves if its index lies inside its table. -/
theorem Resolves.of_free {u : TranslationUnit} {r : Reference} (free : r.before = none)
    (inside : u.Holds r.table r.index) : u.Resolves r := by
  refine ⟨inside, fun slot ordered => ?_⟩
  rw [free] at ordered
  cases ordered

/-- No flaw is found in a reference just if it resolves. -/
theorem flaw?_eq_none_iff {u : TranslationUnit} {r : Reference} :
    u.flaw? r = none ↔ u.Resolves r := by
  unfold flaw? Resolves Holds
  by_cases outside : u.tableSize r.table ≤ r.index
  · rw [if_pos outside]
    constructor
    · intro h; cases h
    · rintro ⟨inside, -⟩; omega
  · rw [if_neg outside]
    cases r.before with
    | none => simp; omega
    | some slot =>
      by_cases late : slot ≤ r.index
      · simp [late]
      · simp [late]; omega

/-- Every reference that the entries of a table make resolves. -/
def TableResolves {α : Type} (u : TranslationUnit) (entries : Array α)
    (references : Nat → α → List Reference) : Prop :=
  ∀ slot a, entries[slot]? = some a → ∀ r ∈ references slot a, u.Resolves r

/-- Scope 0 is the unit itself, and every reference of every entry resolves. -/
structure Consistent (u : TranslationUnit) : Prop where
  root : u.hasRoot = true
  types : u.TableResolves u.types.shapes TypeShape.references
  scopes : u.TableResolves u.scopes Scope.references
  records : u.TableResolves u.records RecordDecl.references
  functions : u.TableResolves u.functions FunctionDecl.references
  vars : u.TableResolves u.vars VariableDecl.references
  statements : u.TableResolves u.statements Stmt.references

private theorem forall_mem_flatMap_zipIdx {α : Type} {u : TranslationUnit} {entries : Array α}
    {references : Nat → α → List Reference} :
    (∀ r ∈ entries.toList.zipIdx.flatMap (fun (a, slot) => references slot a), u.Resolves r)
      ↔ u.TableResolves entries references := by
  constructor
  · intro all slot a found r mem
    refine all r (List.mem_flatMap.mpr ⟨(a, slot), ?_, mem⟩)
    rw [List.mem_zipIdx_iff_getElem?, Array.getElem?_toList]
    exact found
  · intro each r mem
    obtain ⟨⟨a, slot⟩, inTable, ofEntry⟩ := List.mem_flatMap.mp mem
    rw [List.mem_zipIdx_iff_getElem?, Array.getElem?_toList] at inTable
    exact each slot a inTable r ofEntry

/-- The check of the flat list of references is the check of every entry. -/
theorem inconsistency?_eq_none_iff {u : TranslationUnit} :
    u.inconsistency? = none ↔ u.Consistent := by
  have flat : u.references.findSome? u.flaw? = none ↔ ∀ r ∈ u.references, u.Resolves r := by
    rw [List.findSome?_eq_none_iff]
    exact forall₂_congr fun _ _ => flaw?_eq_none_iff
  unfold inconsistency?
  by_cases root : u.hasRoot = true
  · rw [if_pos root, flat]
    -- the flat list is one table after the other
    simp only [references, List.mem_append, or_imp, forall_and, forall_mem_flatMap_zipIdx]
    constructor
    · rintro ⟨⟨⟨⟨⟨types, scopes⟩, records⟩, functions⟩, vars⟩, statements⟩
      exact ⟨root, types, scopes, records, functions, vars, statements⟩
    · intro c
      exact ⟨⟨⟨⟨⟨c.types, c.scopes⟩, c.records⟩, c.functions⟩, c.vars⟩, c.statements⟩
  · rw [if_neg root]
    constructor
    · intro h; cases h
    · intro c; exact absurd c.root root

end TranslationUnit

-- ============================================================ declarations that fit

/-- Every index that a record holds lies inside its table. -/
structure RecordDecl.Fits (u : TranslationUnit) (r : RecordDecl) : Prop where
  scope : u.Holds .scopes r.scope.index
  pattern : ∀ id, r.pattern = some id → u.Holds .records id.index
  args : ∀ t, .type t ∈ r.templateArgs → u.Holds .types t.id.index
  fields : ∀ f ∈ r.fields, u.Holds .types f.type.id.index
  bases : ∀ b ∈ r.bases, u.Holds .types b.type.id.index
  methods : ∀ id ∈ r.methods, u.Holds .functions id.index

/-- All that a function refers to is in the unit. -/
structure FunctionDecl.Fits (u : TranslationUnit) (f : FunctionDecl) : Prop where
  scope : u.Holds .scopes f.scope.index
  ret : u.Holds .types f.ret.id.index
  params : ∀ id ∈ f.params, u.Holds .vars id.index
  parent : ∀ id, f.parent = some id → u.Holds .records id.index
  body : ∀ id, f.body = some id → u.Holds .statements id.index
  pattern : ∀ id, f.pattern = some id → u.Holds .functions id.index

/-- What a node names itself, its parts apart, lies inside its table. -/
def Node.Fits (u : TranslationUnit) : Node → Prop
  | .declRef (.variableRef id) => u.Holds .vars id.index
  | .declRef (.functionRef id) => u.Holds .functions id.index
  | .declRef (.fieldRef id _) => u.Holds .records id.index
  | .freeCall callee _ | .memberCall callee _ _ _ | .operatorCall callee _
  | .construct callee _ => ∀ id, callee = some id → u.Holds .functions id.index
  | .lambda l =>
    (∀ id, l.record = some id → u.Holds .records id.index)
      ∧ ∀ c ∈ l.captures, ∀ id, c.kind.captured? = some id → u.Holds .vars id.index
  | _ => True

/-- Every index that an expression or a node below it holds lies inside its table. -/
def Expr.Fits (u : TranslationUnit) (e : Expr) : Prop :=
  ∀ n ∈ e.nodes, u.Holds .types n.type.id.index ∧ n.node.Fits u

/-- All that a variable refers to is in the unit. -/
structure VariableDecl.Fits (u : TranslationUnit) (v : VariableDecl) : Prop where
  type : u.Holds .types v.type.id.index
  declStmt : ∀ id, v.declStmt = some id → u.Holds .statements id.index
  function : ∀ id, v.function = some id → u.Holds .functions id.index
  init : ∀ e, v.init = some e → e.Fits u

/-- Every index that a statement holds lies inside its table, and its children precede it. -/
structure Stmt.Fits (u : TranslationUnit) (slot : Nat) (s : Stmt) : Prop where
  parent : ∀ id, s.parent = some id → u.Holds .statements id.index
  children : ∀ id ∈ s.children, u.Holds .statements id.index ∧ id.index < slot
  declared : ∀ id ∈ s.declared, u.Holds .vars id.index
  exprs : ∀ e ∈ s.exprs, e.Fits u

-- ============================================================ references that resolve

namespace TranslationUnit

variable {u : TranslationUnit} {o : Owner}

private theorem fits_of_node {node : Node} (h : ∀ r ∈ node.references o, u.Resolves r) :
    node.Fits u := by
  cases node with
  | declRef target =>
    cases target <;> exact (h _ List.mem_cons_self).1
  | freeCall callee args | memberCall callee base isArrow args | operatorCall callee args
  | construct callee args =>
    rintro id rfl
    exact (h (o.toFunction id) (by simp [Node.references])).1
  | lambda l =>
    constructor
    · intro id known
      exact (h (o.toRecord id) (by simp [Node.references, known])).1
    · intro c mem id captured
      refine (h (o.toVariable id) ?_).1
      simp only [Node.references, List.mem_append, List.mem_map, List.mem_filterMap]
      exact .inr ⟨id, ⟨c, mem, captured⟩, rfl⟩
  | _ => exact trivial

/-- References that resolve make an expression fit, part by part. -/
theorem fits_of_expr {e : Expr} (h : ∀ r ∈ e.references o, u.Resolves r) : e.Fits u := by
  intro n mem
  have ofNode : ∀ r ∈ o.toType n.type :: n.node.references o, u.Resolves r := by
    intro r inNode
    exact h r (List.mem_flatMap.mpr ⟨n, mem, inNode⟩)
  refine ⟨(ofNode _ List.mem_cons_self).1, fits_of_node (o := o) fun r inNode => ?_⟩
  exact ofNode r (List.mem_cons_of_mem _ inNode)

/-- And a record. -/
theorem fits_of_record {slot : Nat} {r : RecordDecl}
    (h : ∀ ref ∈ r.references slot, u.Resolves ref) : r.Fits u := by
  simp only [RecordDecl.references, List.mem_append, List.mem_cons, List.mem_map,
    List.mem_filterMap, Option.mem_toList] at h
  constructor
  · exact (h _ (.inl (.inl (.inl (.inl (.inl rfl)))))).1
  · intro id known
    exact (h _ (.inl (.inl (.inl (.inl (.inr ⟨id, known, rfl⟩)))))).1
  · intro t mem
    exact (h _ (.inl (.inl (.inl (.inr ⟨t, ⟨_, mem, rfl⟩, rfl⟩))))).1
  · intro f mem
    exact (h _ (.inl (.inl (.inr ⟨f, mem, rfl⟩)))).1
  · intro b mem
    exact (h _ (.inl (.inr ⟨b, mem, rfl⟩))).1
  · intro id mem
    exact (h _ (.inr ⟨id, mem, rfl⟩)).1

/-- And a function. -/
theorem fits_of_function {slot : Nat} {f : FunctionDecl}
    (h : ∀ ref ∈ f.references slot, u.Resolves ref) : f.Fits u := by
  simp only [FunctionDecl.references, List.mem_append, List.mem_cons, List.mem_map,
    Option.mem_toList] at h
  constructor
  · exact (h _ (.inl (.inl (.inl (.inl rfl))))).1
  · exact (h _ (.inl (.inl (.inl (.inr (.inl rfl)))))).1
  · intro id mem
    exact (h _ (.inl (.inl (.inl (.inr (.inr ⟨id, mem, rfl⟩)))))).1
  · intro id known
    exact (h _ (.inl (.inl (.inr ⟨id, known, rfl⟩)))).1
  · intro id known
    exact (h _ (.inl (.inr ⟨id, known, rfl⟩))).1
  · intro id known
    exact (h _ (.inr ⟨id, known, rfl⟩)).1

/-- And a variable. -/
theorem fits_of_variable {slot : Nat} {v : VariableDecl}
    (h : ∀ ref ∈ v.references slot, u.Resolves ref) : v.Fits u := by
  simp only [VariableDecl.references, List.mem_append, List.mem_cons, List.mem_map,
    List.mem_flatMap, Option.mem_toList] at h
  constructor
  · exact (h _ (.inl (.inl (.inl rfl)))).1
  · intro id known
    exact (h _ (.inl (.inl (.inr ⟨id, known, rfl⟩)))).1
  · intro id known
    exact (h _ (.inl (.inr ⟨id, known, rfl⟩))).1
  · intro e known
    exact fits_of_expr fun r mem => h r (.inr ⟨e, known, mem⟩)

/-- And a statement, whose children come before it. -/
theorem fits_of_stmt {slot : Nat} {s : Stmt}
    (h : ∀ ref ∈ s.references slot, u.Resolves ref) : s.Fits u slot := by
  simp only [Stmt.references, List.mem_append, List.mem_map, List.mem_flatMap,
    Option.mem_toList] at h
  constructor
  · intro id known
    exact (h _ (.inl (.inl (.inl ⟨id, known, rfl⟩)))).1
  · intro id mem
    -- the only references of a statement that have to go backwards
    have resolved := h _ (.inl (.inl (.inr ⟨id, mem, rfl⟩)))
    exact ⟨resolved.1, resolved.2 slot rfl⟩
  · intro id mem
    exact (h _ (.inl (.inr ⟨id, mem, rfl⟩))).1
  · intro e mem
    exact fits_of_expr fun r inExpr => h r (.inr ⟨e, mem, inExpr⟩)

end TranslationUnit

end SafeDialect
