/-
Linking a consistent unit gives a consistent unit.

Each of the three kinds of back link changes one field of one entry, and puts an index there that
lies inside its table. So no table changes its size, and no other reference is touched; a run of
such steps keeps both.
-/
import SafeDialect.Program.Linking
import SafeDialect.Proofs.Program.Lookup

namespace SafeDialect

namespace TranslationUnit

variable {u v w : TranslationUnit} {π : Fault → Prop}

/-- Two units with tables of the same sizes. -/
def SameSizes (u v : TranslationUnit) : Prop := ∀ table, v.tableSize table = u.tableSize table

/-- A unit has the sizes that it has. -/
theorem SameSizes.refl (u : TranslationUnit) : u.SameSizes u := fun _ => rfl

/-- Sizes that are kept twice are kept. -/
theorem SameSizes.trans (first : u.SameSizes v) (second : v.SameSizes w) : u.SameSizes w :=
  fun table => (second table).trans (first table)

/-- Units of the same sizes have the same slots. -/
theorem SameSizes.holds_iff (same : u.SameSizes v) {table : Table} {index : Nat} :
    v.Holds table index ↔ u.Holds table index := by
  unfold Holds
  rw [same table]

private theorem SameSizes.resolves_iff (same : u.SameSizes v) {r : Reference} :
    v.Resolves r ↔ u.Resolves r := by
  unfold Resolves
  rw [same.holds_iff]

/-- So a table resolves in one as it does in the other. -/
theorem SameSizes.tableResolves {α : Type} (same : u.SameSizes v) {entries : Array α}
    {references : Nat → α → List Reference} (h : u.TableResolves entries references) :
    v.TableResolves entries references :=
  fun slot a found r mem => same.resolves_iff.mpr (h slot a found r mem)

/-- A change of one entry that only adds references that resolve. -/
theorem TableResolves.modify {α : Type} {entries : Array α}
    {references : Nat → α → List Reference} (h : u.TableResolves entries references) {index : Nat}
    {change : α → α}
    (adds : ∀ slot a, ∀ r ∈ references slot (change a), r ∈ references slot a ∨ u.Resolves r) :
    u.TableResolves (entries.modify index change) references := by
  intro slot a found r mem
  rw [Array.getElem?_modify] at found
  by_cases changed : index = slot
  · rw [if_pos changed] at found
    obtain ⟨before, foundBefore, rfl⟩ := Option.map_eq_some_iff.mp found
    rcases adds slot before r mem with old | new
    · exact h slot before foundBefore r old
    · exact new
  · rw [if_neg changed] at found
    exact h slot a found r mem

-- ============================================================ one back link

/-- What linking keeps: the unit is consistent, and no table changes its size. -/
structure Relinked (u v : TranslationUnit) : Prop where
  consistent : v.Consistent
  sizes : u.SameSizes v

/-- Back links may be set one after the other. -/
theorem Relinked.trans (first : u.Relinked v) (second : v.Relinked w) : u.Relinked w :=
  ⟨second.consistent, first.sizes.trans second.sizes⟩

/-- An entry that is there can be changed. -/
theorem modifyEntry_ends {α : Type} {table : Table} {entries : Array α} {index : Nat}
    {change : α → α} (inside : index < entries.size) :
    Ends π (modifyEntry table entries index change) (· = entries.modify index change) := by
  unfold modifyEntry
  rw [if_pos inside]
  exact .ok rfl

/-- A child that is there gets a parent that is there. -/
private theorem setParent_ends (c : u.Consistent) {parent child : StmtId}
    (insideParent : u.Holds .statements parent.index)
    (insideChild : u.Holds .statements child.index) :
    Ends π (setParent parent u child) u.Relinked := by
  refine .bind (modifyEntry_ends insideChild) ?_
  rintro statements rfl
  have same : u.SameSizes { u with
      statements := u.statements.modify child.index
        (fun s => { s with parent := some parent }) } := by
    intro table
    cases table <;> simp [tableSize]
  refine .pure ⟨⟨c.root, same.tableResolves c.types, same.tableResolves c.scopes,
    same.tableResolves c.records, same.tableResolves c.functions, same.tableResolves c.vars, ?_⟩,
    same⟩
  refine same.tableResolves (c.statements.modify fun slot s r mem => ?_)
  simp only [Stmt.references, List.mem_append, Option.toList_some, List.map_cons, List.map_nil,
    List.mem_singleton] at mem ⊢
  -- the parent is the one new reference, and it may point anywhere in its table
  rcases mem with ((rfl | mem) | mem) | mem
  · exact .inr (.of_free rfl insideParent)
  · exact .inl (.inl (.inl (.inr mem)))
  · exact .inl (.inl (.inr mem))
  · exact .inl (.inr mem)

/-- Both back links of a variable are set by a change of one field of its entry. -/
theorem modifyVariable_ends (c : u.Consistent) {id : VariableId}
    (inside : u.Holds .vars id.index) {change : VariableDecl → VariableDecl}
    (adds : ∀ slot v, ∀ r ∈ (change v).references slot,
      r ∈ v.references slot ∨ u.Resolves r) :
    Ends π (do
      let vars ← modifyEntry .vars u.vars id.index change
      return { u with vars }) u.Relinked := by
  refine .bind (modifyEntry_ends inside) ?_
  rintro vars rfl
  have same : u.SameSizes { u with vars := u.vars.modify id.index change } := by
    intro table
    cases table <;> simp [tableSize]
  exact .pure ⟨⟨c.root, same.tableResolves c.types, same.tableResolves c.scopes,
    same.tableResolves c.records, same.tableResolves c.functions,
    same.tableResolves (c.vars.modify adds), same.tableResolves c.statements⟩, same⟩

private theorem setDeclStmt_ends (c : u.Consistent) {stmt : StmtId} {id : VariableId}
    (insideStmt : u.Holds .statements stmt.index) (inside : u.Holds .vars id.index) :
    Ends π (setDeclStmt stmt u id) u.Relinked := by
  refine modifyVariable_ends c inside fun slot v r mem => ?_
  simp only [VariableDecl.references, List.mem_append, List.mem_cons, Option.toList_some,
    List.map_cons, List.map_nil, List.not_mem_nil, or_false] at mem ⊢
  rcases mem with ((mem | rfl) | mem) | mem
  · exact .inl (.inl (.inl (.inl mem)))
  · exact .inr (.of_free rfl insideStmt)
  · exact .inl (.inl (.inr mem))
  · exact .inl (.inr mem)

private theorem setOwner_ends (c : u.Consistent) {f : FunctionId} {id : VariableId}
    (insideFunction : u.Holds .functions f.index) (inside : u.Holds .vars id.index) :
    Ends π (setOwner f u id) u.Relinked := by
  refine modifyVariable_ends c inside fun slot v r mem => ?_
  simp only [VariableDecl.references, List.mem_append, List.mem_cons, Option.toList_some,
    List.map_cons, List.map_nil, List.not_mem_nil, or_false] at mem ⊢
  rcases mem with (mem | rfl) | mem
  · exact .inl (.inl (.inl mem))
  · exact .inr (.of_free rfl insideFunction)
  · exact .inl (.inr mem)

-- ============================================================ all back links

/-- Steps that each keep a unit relinked do so one after the other. -/
theorem foldlM_relinked {α : Type} {step : TranslationUnit → α → Result TranslationUnit}
    {l : List α} (start : u.Relinked v)
    (each : ∀ a ∈ l, ∀ v, u.Relinked v → Ends π (step v a) v.Relinked) :
    Ends π (l.foldlM step v) u.Relinked := by
  refine ends_foldlM start fun a mem v kept => ?_
  exact Ends.mono (each a mem v kept) fun w next => kept.trans next

/-- A statement adopts what it lists, all of which is there. -/
theorem adopt_ends (c : u.Consistent) {id : StmtId} (inside : u.Holds .statements id.index) :
    Ends π (u.adopt id) u.Relinked := by
  refine .bind (c.statement_ends inside) fun s fits => ?_
  refine .bind (foldlM_relinked ⟨c, .refl u⟩ fun child mem v kept => ?_) fun v kept => ?_
  · exact setParent_ends kept.consistent (kept.sizes.holds_iff.mpr inside)
      (kept.sizes.holds_iff.mpr (fits.children child mem).1)
  · refine foldlM_relinked kept fun id' mem w kept' => ?_
    exact setDeclStmt_ends kept'.consistent (kept'.sizes.holds_iff.mpr inside)
      (kept'.sizes.holds_iff.mpr (fits.declared id' mem))

/-- A function owns what it takes, all of which is there. -/
theorem own_ends (c : u.Consistent) {id : FunctionId} (inside : u.Holds .functions id.index) :
    Ends π (u.own id) u.Relinked := by
  refine .bind (c.function_ends inside) fun f fits => ?_
  refine foldlM_relinked ⟨c, .refl u⟩ fun param mem v kept => ?_
  exact setOwner_ends kept.consistent (kept.sizes.holds_iff.mpr inside)
    (kept.sizes.holds_iff.mpr (fits.params param mem))

/-- Linking follows no index outside its table and leaves the unit consistent. -/
theorem link_ends (c : u.Consistent) : Ends π u.link u.Relinked := by
  refine .bind (foldlM_relinked ⟨c, .refl u⟩ fun id mem v kept => ?_) fun v kept => ?_
  · have inside : u.Holds .statements id.index :=
      index_lt_of_mem_slots StmtId.index (fun _ => rfl) mem
    exact adopt_ends kept.consistent (kept.sizes.holds_iff.mpr inside)
  · refine foldlM_relinked kept fun id mem w kept' => ?_
    have inside : v.Holds .functions id.index :=
      index_lt_of_mem_slots FunctionId.index (fun _ => rfl) mem
    exact own_ends kept'.consistent
      (kept'.sizes.holds_iff.mpr (kept.sizes.holds_iff.mp inside))

end TranslationUnit

end SafeDialect
