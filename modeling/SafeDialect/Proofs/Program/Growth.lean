/-
Growing a consistent unit.

Tables only grow, so what lies inside a table stays inside it, and every reference that resolves
goes on to do so. A new entry leaves the unit consistent if it fits, since its slot lies behind all
indices that it can hold; a changed entry does if it fits after the change.
-/
import SafeDialect.Proofs.Program.Linked

namespace SafeDialect

namespace TranslationUnit

variable {u v w : TranslationUnit} {o : Owner} {π : Fault → Prop}

-- ============================================================ entries that fit resolve

/-- The references of a node that fits resolve. -/
private theorem resolves_of_node {node : Node} (fits : node.Fits u) :
    ∀ r ∈ node.references o, u.Resolves r := by
  intro r mem
  cases node with
  | declRef target =>
    cases target <;> cases List.mem_singleton.mp mem <;> exact .of_free rfl fits
  | freeCall callee args | memberCall callee base isArrow args | operatorCall callee args
  | construct callee args =>
    obtain ⟨id, known, rfl⟩ := List.mem_map.mp mem
    exact .of_free rfl (fits id (Option.mem_toList.mp known))
  | lambda l =>
    rcases List.mem_append.mp mem with inRecord | inCaptures
    · obtain ⟨id, known, rfl⟩ := List.mem_map.mp inRecord
      exact .of_free rfl (fits.1 id (Option.mem_toList.mp known))
    · obtain ⟨id, captured, rfl⟩ := List.mem_map.mp inCaptures
      obtain ⟨c, inList, known⟩ := List.mem_filterMap.mp captured
      exact .of_free rfl (fits.2 c inList id known)
  | _ => cases mem

/-- So do those of an expression, node by node. -/
private theorem resolves_of_expr {e : Expr} (fits : e.Fits u) :
    ∀ r ∈ e.references o, u.Resolves r := by
  intro r mem
  obtain ⟨n, below, inNode⟩ := List.mem_flatMap.mp mem
  rcases List.mem_cons.mp inNode with rfl | inNode
  · exact .of_free rfl (fits n below).1
  · exact resolves_of_node (fits n below).2 r inNode

/-- And those of a record. -/
private theorem resolves_of_record {slot : Nat} {r : RecordDecl} (fits : r.Fits u) :
    ∀ ref ∈ r.references slot, u.Resolves ref := by
  intro ref mem
  simp only [RecordDecl.references, List.mem_append, List.mem_cons, List.mem_map,
    List.mem_filterMap, Option.mem_toList] at mem
  rcases mem with ((((rfl | ⟨id, known, rfl⟩) | ⟨t, ⟨arg, inArgs, isType⟩, rfl⟩)
    | ⟨f, inFields, rfl⟩) | ⟨b, inBases, rfl⟩) | ⟨id, inMethods, rfl⟩
  · exact .of_free rfl fits.scope
  · exact .of_free rfl (fits.pattern id known)
  · cases arg with
    | type t' =>
      cases isType
      exact .of_free rfl (fits.args t inArgs)
    | _ => cases isType
  · exact .of_free rfl (fits.fields f inFields)
  · exact .of_free rfl (fits.bases b inBases)
  · exact .of_free rfl (fits.methods id inMethods)

/-- And those of a function. -/
private theorem resolves_of_function {slot : Nat} {f : FunctionDecl} (fits : f.Fits u) :
    ∀ ref ∈ f.references slot, u.Resolves ref := by
  intro ref mem
  simp only [FunctionDecl.references, List.mem_append, List.mem_cons, List.mem_map,
    Option.mem_toList] at mem
  rcases mem with (((rfl | rfl | ⟨id, inParams, rfl⟩) | ⟨id, known, rfl⟩) | ⟨id, known, rfl⟩)
    | ⟨id, known, rfl⟩
  · exact .of_free rfl fits.scope
  · exact .of_free rfl fits.ret
  · exact .of_free rfl (fits.params id inParams)
  · exact .of_free rfl (fits.parent id known)
  · exact .of_free rfl (fits.body id known)
  · exact .of_free rfl (fits.pattern id known)

/-- And those of a variable. -/
private theorem resolves_of_variable {slot : Nat} {d : VariableDecl} (fits : d.Fits u) :
    ∀ ref ∈ d.references slot, u.Resolves ref := by
  intro ref mem
  simp only [VariableDecl.references, List.mem_append, List.mem_cons, List.mem_map,
    List.mem_flatMap, Option.mem_toList] at mem
  rcases mem with ((rfl | ⟨id, known, rfl⟩) | ⟨id, known, rfl⟩) | ⟨e, known, inExpr⟩
  · exact .of_free rfl fits.type
  · exact .of_free rfl (fits.declStmt id known)
  · exact .of_free rfl (fits.function id known)
  · exact resolves_of_expr (fits.init e known) ref inExpr

/-- And those of a statement. -/
private theorem resolves_of_stmt {slot : Nat} {s : Stmt} (fits : s.Fits u slot) :
    ∀ ref ∈ s.references slot, u.Resolves ref := by
  intro ref mem
  simp only [Stmt.references, List.mem_append, List.mem_map, List.mem_flatMap,
    Option.mem_toList] at mem
  rcases mem with ((⟨id, known, rfl⟩ | ⟨id, inChildren, rfl⟩) | ⟨id, inDeclared, rfl⟩)
    | ⟨e, inExprs, inExpr⟩
  · exact .of_free rfl (fits.parent id known)
  · obtain ⟨inside, earlier⟩ := fits.children id inChildren
    refine ⟨inside, fun slot' same => ?_⟩
    cases same
    exact earlier
  · exact .of_free rfl (fits.declared id inDeclared)
  · exact resolves_of_expr (fits.exprs e inExprs) ref inExpr

/-- And those of a layer. -/
private theorem resolves_of_shape {slot : Nat} {shape : TypeShape} (fits : shape.Fits u slot) :
    ∀ ref ∈ shape.references slot, u.Resolves ref := by
  -- every reference but that to a record is one to a component, which precedes the slot
  have earlier {t : QualifiedType} (mem : t ∈ shape.components) :
      u.Resolves ((Owner.type slot).toEarlierType slot t) := by
    refine ⟨(fits.components t mem).1, fun slot' same => ?_⟩
    cases same
    exact (fits.components t mem).2
  intro ref mem
  cases shape with
  | function ret params =>
    obtain ⟨t, inShape, rfl⟩ := List.mem_map.mp mem
    exact earlier inShape
  | record id =>
    cases List.mem_singleton.mp mem
    exact .of_free rfl (fits.record id rfl)
  | builtin | enum | templateParam | dependent => cases mem
  | pointer t | lvalueReference t | rvalueReference t | array t | synonym name t =>
    cases List.mem_singleton.mp mem
    exact earlier List.mem_cons_self

-- ============================================================ growing

/-- No table of the second unit is smaller than that of the first. -/
def Grown (u v : TranslationUnit) : Prop := ∀ table, u.tableSize table ≤ v.tableSize table

/-- A unit that stays as it is has grown by nothing. -/
theorem Grown.refl (u : TranslationUnit) : u.Grown u := fun _ => Nat.le_refl _

/-- Growth upon growth. -/
theorem Grown.trans (first : u.Grown v) (second : v.Grown w) : u.Grown w :=
  fun table => Nat.le_trans (first table) (second table)

/-- A unit whose tables have kept their sizes has grown by nothing. -/
theorem SameSizes.grown (same : u.SameSizes v) : u.Grown v :=
  fun table => Nat.le_of_eq (same table).symm

/-- What was there is still there. -/
theorem Grown.holds (grown : u.Grown v) {table : Table} {index : Nat}
    (inside : u.Holds table index) : v.Holds table index :=
  Nat.lt_of_lt_of_le inside (grown table)

/-- So what resolved still does. -/
theorem Grown.resolves (grown : u.Grown v) {r : Reference} (resolves : u.Resolves r) :
    v.Resolves r :=
  ⟨grown.holds resolves.1, resolves.2⟩

/-- And so does a whole table. -/
theorem Grown.tableResolves {α : Type} (grown : u.Grown v) {entries : Array α}
    {references : Nat → α → List Reference} (h : u.TableResolves entries references) :
    v.TableResolves entries references :=
  fun slot a found r mem => grown.resolves (h slot a found r mem)

/-- A node that fits goes on to fit. -/
theorem Grown.node (grown : u.Grown v) {node : Node} (fits : node.Fits u) : node.Fits v := by
  cases node with
  | declRef target => cases target <;> exact grown.holds fits
  | freeCall | memberCall | operatorCall | construct =>
    exact fun id known => grown.holds (fits id known)
  | lambda l =>
    exact ⟨fun id known => grown.holds (fits.1 id known),
      fun c mem id known => grown.holds (fits.2 c mem id known)⟩
  | _ => trivial

/-- And so does an expression. -/
theorem Grown.expr (grown : u.Grown v) {e : Expr} (fits : e.Fits u) : e.Fits v :=
  fun n mem => ⟨grown.holds (fits n mem).1, grown.node (fits n mem).2⟩

/-- A unit that has grown and is consistent. -/
structure Extended (u v : TranslationUnit) : Prop where
  consistent : v.Consistent
  grown : u.Grown v

/-- A consistent unit extends itself. -/
theorem Consistent.extended (c : u.Consistent) : u.Extended u := ⟨c, .refl u⟩

/-- Extensions of extensions. -/
theorem Extended.trans (first : u.Extended v) (second : v.Extended w) : u.Extended w :=
  ⟨second.consistent, first.grown.trans second.grown⟩

/-- Setting back links extends a unit, in which only these have changed. -/
theorem Relinked.extended (h : u.Relinked v) : u.Extended v := ⟨h.consistent, h.sizes.grown⟩

/-- A unit that has grown is consistent if what its tables hold resolved before. -/
theorem Grown.extended (grown : u.Grown v) (root : v.hasRoot = true)
    (types : u.TableResolves v.types.shapes TypeShape.references)
    (scopes : u.TableResolves v.scopes Scope.references)
    (records : u.TableResolves v.records RecordDecl.references)
    (functions : u.TableResolves v.functions FunctionDecl.references)
    (vars : u.TableResolves v.vars VariableDecl.references)
    (statements : u.TableResolves v.statements Stmt.references) : u.Extended v :=
  ⟨⟨root, grown.tableResolves types, grown.tableResolves scopes, grown.tableResolves records,
    grown.tableResolves functions, grown.tableResolves vars, grown.tableResolves statements⟩, grown⟩

private theorem hasRoot_iff :
    u.hasRoot = true ↔ ∃ scope, u.scopes[0]? = some scope ∧ scope.kind = .translationUnit := by
  unfold hasRoot
  cases u.scopes[0]? with
  | none => simp
  | some scope => simp

/-- A consistent unit has its own scope. -/
theorem Consistent.holds_root (c : u.Consistent) : u.Holds .scopes ScopeId.root.index := by
  obtain ⟨_, look, _⟩ := hasRoot_iff.mp c.root
  exact (Array.getElem?_eq_some_iff.mp look).1

-- ============================================================ one more entry

/-- A new entry at the end of a table. -/
theorem TableResolves.push {α : Type} {entries : Array α} {references : Nat → α → List Reference}
    (h : u.TableResolves entries references) {a : α}
    (new : ∀ r ∈ references entries.size a, u.Resolves r) :
    u.TableResolves (entries.push a) references := by
  intro slot b found r mem
  rw [Array.getElem?_push] at found
  split at found
  · next last =>
    cases found
    rw [last] at mem
    exact new r mem
  · exact h slot b found r mem

/-- A layer that is made of earlier slots may be added. -/
private theorem Consistent.push_types (c : u.Consistent) {shape : TypeShape}
    (fits : shape.Fits u u.types.size) :
    u.Extended { u with types := ⟨u.types.shapes.push shape⟩ } := by
  refine Grown.extended ?_ c.root (c.types.push (resolves_of_shape fits)) c.scopes c.records
    c.functions c.vars c.statements
  intro table
  cases table <;> simp [tableSize, TypeTable.size]

private theorem hasRoot_push (root : u.hasRoot = true) {scope : Scope} :
    ({ u with scopes := u.scopes.push scope } : TranslationUnit).hasRoot = true := by
  obtain ⟨first, look, isRoot⟩ := hasRoot_iff.mp root
  have nonempty := (Array.getElem?_eq_some_iff.mp look).1
  refine hasRoot_iff.mpr ⟨first, ?_, isRoot⟩
  rw [Array.getElem?_push, if_neg (Nat.ne_of_lt nonempty), look]

/-- A scope may be added whose references resolve, the one around it before its own slot. -/
theorem Consistent.addScope (c : u.Consistent) {scope : Scope}
    (resolves : ∀ r ∈ scope.references u.scopes.size, u.Resolves r) :
    u.Extended (u.addScope scope).1 := by
  refine Grown.extended ?_ (hasRoot_push c.root) c.types (c.scopes.push resolves) c.records
    c.functions c.vars c.statements
  intro table
  cases table <;> simp [tableSize, TranslationUnit.addScope]

/-- A record may be added that fits. -/
theorem Consistent.addRecord (c : u.Consistent) {r : RecordDecl} (fits : r.Fits u) :
    u.Extended (u.addRecord r).1 := by
  refine Grown.extended ?_ c.root c.types c.scopes (c.records.push (resolves_of_record fits))
    c.functions c.vars c.statements
  intro table
  cases table <;> simp [tableSize, TranslationUnit.addRecord]

/-- And so may a variable. -/
theorem Consistent.addVariable (c : u.Consistent) {d : VariableDecl} (fits : d.Fits u) :
    u.Extended (u.addVariable d).1 := by
  refine Grown.extended ?_ c.root c.types c.scopes c.records c.functions
    (c.vars.push (resolves_of_variable fits)) c.statements
  intro table
  cases table <;> simp [tableSize, TranslationUnit.addVariable]

/-- A function may be pushed that fits, before its parameters are linked back. -/
private theorem Consistent.push_functions (c : u.Consistent) {f : FunctionDecl} (fits : f.Fits u) :
    u.Extended { u with functions := u.functions.push f } := by
  refine Grown.extended ?_ c.root c.types c.scopes c.records
    (c.functions.push (resolves_of_function fits)) c.vars c.statements
  intro table
  cases table <;> simp [tableSize]

/-- And so may a statement, with children that come before it. -/
private theorem Consistent.push_statements (c : u.Consistent) {s : Stmt}
    (fits : s.Fits u u.statements.size) :
    u.Extended { u with statements := u.statements.push s } := by
  refine Grown.extended ?_ c.root c.types c.scopes c.records c.functions c.vars
    (c.statements.push (resolves_of_stmt fits))
  intro table
  cases table <;> simp [tableSize]

-- ============================================================ entries with back links

private theorem setOwner_functions (functions : Array FunctionDecl) (f : FunctionId)
    (id : VariableId) : setOwner f { u with functions } id
      = (setOwner f u id).map fun v => { v with functions } := by
  unfold setOwner modifyEntry
  dsimp only
  split <;> rfl

/-- Setting owners looks at no function. -/
private theorem foldlM_setOwner_functions (functions : Array FunctionDecl) (f : FunctionId)
    (params : List VariableId) : params.foldlM (setOwner f) { u with functions }
      = (params.foldlM (setOwner f) u).map fun v => { v with functions } := by
  induction params generalizing u with
  | nil => rfl
  | cons id rest ih =>
    rw [List.foldlM_cons, List.foldlM_cons, setOwner_functions]
    cases setOwner f u id with
    | error fault => rfl
    | ok v => exact ih

/-- A function may as well be there before its parameters are linked back to it. -/
theorem addFunction_eq_own (f : FunctionDecl) :
    u.addFunction f = (({ u with functions := u.functions.push f } : TranslationUnit).own
      ⟨u.functions.size⟩).map fun v => (v, ⟨u.functions.size⟩) := by
  have look : ({ u with functions := u.functions.push f } : TranslationUnit).function
      ⟨u.functions.size⟩ = .ok f := by
    simp [function, entry]
  -- linking leaves the functions as they are
  have untouched := foldlM_setOwner_functions (u := u) u.functions ⟨u.functions.size⟩ f.params
  unfold addFunction own
  rw [look, ok_bind, foldlM_setOwner_functions]
  dsimp only at untouched ⊢
  cases linked : f.params.foldlM (setOwner ⟨u.functions.size⟩) u with
  | error fault => rfl
  | ok v =>
    rw [linked] at untouched
    have same : v = { v with functions := u.functions } := Except.ok.inj untouched
    have functions := congrArg TranslationUnit.functions same
    show Except.ok _ = Except.ok _
    rw [show v.functions = u.functions from functions]

/-- A function that fits is added with its parameters linked back to it. -/
theorem Consistent.addFunction_ends (c : u.Consistent) {f : FunctionDecl} (fits : f.Fits u) :
    Ends π (u.addFunction f) fun (v, id) => u.Extended v ∧ v.Holds .functions id.index := by
  have extended := c.push_functions fits
  have inside : ({ u with functions := u.functions.push f } : TranslationUnit).Holds .functions
      u.functions.size := by
    simp [Holds, tableSize]
  have linked : Ends π (({ u with functions := u.functions.push f } : TranslationUnit).own
      ⟨u.functions.size⟩) _ := own_ends extended.consistent inside
  rw [addFunction_eq_own]
  cases run : ({ u with functions := u.functions.push f } : TranslationUnit).own
      ⟨u.functions.size⟩ with
  | error fault =>
    rw [run] at linked
    exact linked
  | ok v =>
    rw [run] at linked
    exact ⟨extended.trans linked.extended, linked.sizes.holds_iff.mpr inside⟩

/-- A statement that fits is added with its children linked back to it. -/
theorem Consistent.addStmt_ends (c : u.Consistent) {s : Stmt}
    (fits : s.Fits u u.statements.size) :
    Ends π (u.addStmt s) fun (v, id) => u.Extended v ∧ v.Holds .statements id.index := by
  have extended := c.push_statements fits
  have inside : ({ u with statements := u.statements.push s } : TranslationUnit).Holds .statements
      u.statements.size := by
    simp [Holds, tableSize]
  refine .bind (adopt_ends extended.consistent inside) fun v linked => ?_
  exact .pure ⟨extended.trans linked.extended, linked.sizes.holds_iff.mpr inside⟩

-- ============================================================ a changed entry

/-- A change of one entry after which its references resolve if they did before. -/
theorem TableResolves.revise {α : Type} {entries : Array α}
    {references : Nat → α → List Reference} (h : u.TableResolves entries references) {index : Nat}
    {change : α → α}
    (keeps : ∀ slot a, (∀ r ∈ references slot a, u.Resolves r) →
      ∀ r ∈ references slot (change a), u.Resolves r) :
    u.TableResolves (entries.modify index change) references := by
  intro slot a found
  rw [Array.getElem?_modify] at found
  split at found
  · obtain ⟨before, foundBefore, rfl⟩ := Option.map_eq_some_iff.mp found
    exact keeps slot before (h slot before foundBefore)
  · exact h slot a found

/-- A record may be changed if it goes on to fit. -/
theorem Consistent.modifyRecord (c : u.Consistent) {index : Nat} {change : RecordDecl → RecordDecl}
    (keeps : ∀ r, r.Fits u → (change r).Fits u) :
    u.Extended { u with records := u.records.modify index change } := by
  refine Grown.extended ?_ c.root c.types c.scopes (c.records.revise fun slot r resolves => ?_)
    c.functions c.vars c.statements
  · intro table
    cases table <;> simp [tableSize]
  · exact resolves_of_record (keeps r (TranslationUnit.fits_of_record resolves))

/-- And so may a function. -/
theorem Consistent.modifyFunction (c : u.Consistent) {index : Nat}
    {change : FunctionDecl → FunctionDecl} (keeps : ∀ f, f.Fits u → (change f).Fits u) :
    u.Extended { u with functions := u.functions.modify index change } := by
  refine Grown.extended ?_ c.root c.types c.scopes c.records
    (c.functions.revise fun slot f resolves => ?_) c.vars c.statements
  · intro table
    cases table <;> simp [tableSize]
  · exact resolves_of_function (keeps f (fits_of_function resolves))

/-- And so may a variable. -/
theorem Consistent.modifyVariable (c : u.Consistent) {index : Nat}
    {change : VariableDecl → VariableDecl} (keeps : ∀ d, d.Fits u → (change d).Fits u) :
    u.Extended { u with vars := u.vars.modify index change } := by
  refine Grown.extended ?_ c.root c.types c.scopes c.records c.functions
    (c.vars.revise fun slot d resolves => ?_) c.statements
  · intro table
    cases table <;> simp [tableSize]
  · exact resolves_of_variable (keeps d (fits_of_variable resolves))

/-- The attributes of a scope are not part of what it refers to. -/
theorem Consistent.tagScope (c : u.Consistent) {index : Nat} {a : Attribute} :
    u.Extended { u with
      scopes := u.scopes.modify index fun s =>
        { s with attributes := s.attributes.insert a } } := by
  refine Grown.extended ?_ ?_ c.types (c.scopes.revise fun slot s resolves => resolves) c.records
    c.functions c.vars c.statements
  · intro table
    cases table <;> simp [tableSize]
  · obtain ⟨first, look, isRoot⟩ := hasRoot_iff.mp c.root
    rw [hasRoot_iff, Array.getElem?_modify, look]
    by_cases tagged : index = 0
    · rw [if_pos tagged]
      exact ⟨_, rfl, isRoot⟩
    · rw [if_neg tagged]
      exact ⟨_, rfl, isRoot⟩

-- ============================================================ interning

/-- A slot that is found below a bound lies below it and holds the layer, and no later one below the
bound does. -/
theorem lastBelow_eq_some {t : TypeTable} {shape : TypeShape} {bound : Nat} {id : TypeId}
    (found : t.lastBelow shape bound = some id) :
    id.index < bound ∧ t.shapes[id.index]? = some shape
      ∧ ∀ slot < bound, t.shapes[slot]? = some shape → slot ≤ id.index := by
  induction bound with
  | zero => cases found
  | succ n ih =>
    unfold TypeTable.lastBelow at found
    by_cases here : t.shapes[n]? = some shape
    · rw [if_pos here] at found
      cases found
      exact ⟨Nat.lt_succ_self n, here, fun slot below _ => Nat.le_of_lt_succ below⟩
    · rw [if_neg here] at found
      obtain ⟨below, holds, last⟩ := ih found
      refine ⟨Nat.lt_succ_of_lt below, holds, fun slot inBound isShape => ?_⟩
      rcases Nat.lt_succ_iff_lt_or_eq.mp inBound with earlier | rfl
      · exact last slot earlier isShape
      · exact absurd isShape here

/-- A layer that a table holds has a slot that the table hands out. -/
theorem exists_lastBelow {t : TypeTable} {shape : TypeShape} {slot bound : Nat}
    (below : slot < bound) (holds : t.shapes[slot]? = some shape) :
    ∃ last, t.lastBelow shape bound = some last := by
  induction bound with
  | zero => exact absurd below (Nat.not_lt_zero slot)
  | succ n ih =>
    unfold TypeTable.lastBelow
    by_cases here : t.shapes[n]? = some shape
    · exact ⟨⟨n⟩, if_pos here⟩
    · have earlier : slot ≠ n := fun same => here (same ▸ holds)
      rw [if_neg here]
      exact ih (by omega)

/-- A layer as it is stored has its parts inside the tables if it had them there before. -/
theorem Consistent.normalize_ends (c : u.Consistent) {shape : TypeShape}
    (fits : shape.Fits u u.types.size) :
    Ends π (u.types.normalize shape) fun stored => stored.Fits u u.types.size := by
  -- the layers with one part that is made canonical
  have one {make : QualifiedType → TypeShape} {t : QualifiedType}
      (inside : u.Holds .types t.id.index) (parts : ∀ t, (make t).components = [t])
      (noRecord : ∀ t id, make t ≠ .record id) :
      Ends π (do return make (← u.types.canonical t)) fun stored =>
        stored.Fits u u.types.size := by
    refine .bind (c.canonical_ends inside) fun r known => .pure ⟨fun part mem => ?_, ?_⟩
    · rw [parts] at mem
      cases List.mem_singleton.mp mem
      exact ⟨known.1, known.1⟩
    · exact fun id same => absurd same (noRecord r id)
  cases shape with
  | pointer t | lvalueReference t | rvalueReference t | array t _ =>
    exact one (fits.components t List.mem_cons_self).1 (fun _ => rfl) (fun _ _ => nofun)
  | _ => exact .pure fits

/-- Interning finds a slot or pushes a layer that is made of earlier ones. -/
theorem Consistent.intern_ends (c : u.Consistent) {shape : TypeShape}
    (fits : shape.Fits u u.types.size) :
    Ends π (u.types.intern shape) fun (types, id) =>
      u.Extended { u with types } ∧ id.index < types.size := by
  refine .bind (c.normalize_ends fits) fun stored fits => ?_
  cases known : u.types.find? stored with
  | none => exact .pure ⟨c.push_types fits, by simp [TypeTable.size]⟩
  | some id =>
    exact .pure ⟨c.extended, (lastBelow_eq_some known).1⟩

end TranslationUnit

end SafeDialect
