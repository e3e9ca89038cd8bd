/-
Links forth and back between two tables, and what linking a unit does to them.

The entries of one table list slots of another, and an entry there may be linked back to one that
lists it: statements list children and declared variables, and functions list parameters. Links are
settled if everything that is listed is linked back to the last that lists it. Linking a unit goes
through the owners in the order of their slots, so it settles all its links, and it leaves a unit
alone whose links are settled.
-/
import SafeDialect.Proofs.Program.Parents

namespace SafeDialect

/-- Links between two tables, by slots: what each entry of the first lists in the second, and what
each entry of the second is linked back to. -/
structure Links where
  lists : Array (List Nat)
  backs : Array (Option Nat)

namespace Links

variable {l : Links} {owner slot bound : Nat}

/-- An entry lists a slot. -/
def Lists (l : Links) (owner slot : Nat) : Prop :=
  ∃ slots, l.lists[owner]? = some slots ∧ slot ∈ slots

instance : Decidable (l.Lists owner slot) :=
  decidable_of_iff (slot ∈ (l.lists[owner]?).getD []) <| by
    unfold Lists
    cases l.lists[owner]? <;> simp

/-- Only an entry that is there lists something. -/
theorem Lists.lt_size (lists : l.Lists owner slot) : owner < l.lists.size := by
  obtain ⟨slots, found, -⟩ := lists
  exact (Array.getElem?_eq_some_iff.mp found).1

/-- The last entry that lists a slot. -/
def ListsLast (l : Links) (owner slot : Nat) : Prop :=
  l.Lists owner slot ∧ ∀ other, l.Lists other slot → other ≤ owner

/-- What is listed exists, and is linked back to the last that lists it. -/
structure Settled (l : Links) : Prop where
  inside : ∀ owner slot, l.Lists owner slot → slot < l.backs.size
  back : ∀ owner slot, l.ListsLast owner slot → l.backs[slot]? = some (some owner)

/-- Where nothing is listed, no back link is wanted. -/
theorem settled_of_empty (empty : l.lists = #[]) : l.Settled := by
  have none (owner slot : Nat) : ¬ l.Lists owner slot := by simp [Lists, empty]
  exact ⟨fun owner slot lists => absurd lists (none owner slot),
    fun owner slot last => absurd last.1 (none owner slot)⟩

-- ============================================================ the last that lists

/-- The last below a bound that lists a slot. -/
def lastBelow (l : Links) (slot : Nat) : (bound : Nat) → Option Nat
  | 0 => none
  | bound + 1 => if l.Lists bound slot then some bound else l.lastBelow slot bound

private theorem lastBelow_succ : l.lastBelow slot (bound + 1) =
    if l.Lists bound slot then some bound else l.lastBelow slot bound := rfl

/-- The search goes down from the bound, so it finds the last of those that list the slot. -/
private theorem lastBelow_eq_some_iff : l.lastBelow slot bound = some owner ↔
    l.Lists owner slot ∧ owner < bound ∧ ∀ other < bound, l.Lists other slot → other ≤ owner := by
  induction bound with
  | zero => simp [lastBelow]
  | succ bound ih =>
    rw [lastBelow_succ]
    by_cases lists : l.Lists bound slot
    · rw [if_pos lists, Option.some.injEq]
      constructor
      · rintro rfl
        exact ⟨lists, Nat.lt_succ_self _, fun other below _ => Nat.lt_succ_iff.mp below⟩
      · rintro ⟨-, below, last⟩
        exact Nat.le_antisymm (last bound (Nat.lt_succ_self _) lists) (Nat.lt_succ_iff.mp below)
    · rw [if_neg lists, ih]
      -- the bound itself lists nothing, so it may be among those that are looked at
      have below_iff {other : Nat} (ofOther : l.Lists other slot) :
          other < bound + 1 ↔ other < bound := by
        have other_ne : other ≠ bound := by
          rintro rfl
          exact lists ofOther
        omega
      constructor
      · rintro ⟨h, below, last⟩
        exact ⟨h, (below_iff h).mpr below, fun other below' ofOther =>
          last other ((below_iff ofOther).mp below') ofOther⟩
      · rintro ⟨h, below, last⟩
        exact ⟨h, (below_iff h).mp below, fun other below' ofOther =>
          last other ((below_iff ofOther).mpr below') ofOther⟩

/-- The last of all. -/
theorem lastBelow_size_eq_some_iff :
    l.lastBelow slot l.lists.size = some owner ↔ l.ListsLast owner slot := by
  rw [lastBelow_eq_some_iff]
  constructor
  · rintro ⟨lists, -, last⟩
    exact ⟨lists, fun other ofOther => last other ofOther.lt_size ofOther⟩
  · rintro ⟨lists, last⟩
    exact ⟨lists, lists.lt_size, fun other _ ofOther => last other ofOther⟩

/-- It finds none just if there is none below the bound. -/
private theorem lastBelow_eq_none_iff :
    l.lastBelow slot bound = none ↔ ∀ other < bound, ¬ l.Lists other slot := by
  induction bound with
  | zero => simp [lastBelow]
  | succ bound ih =>
    rw [lastBelow_succ, Nat.forall_lt_succ_right, ← ih]
    by_cases lists : l.Lists bound slot <;> simp [lists]

private theorem lastBelow_size_eq_none_iff :
    l.lastBelow slot l.lists.size = none ↔ ∀ owner, ¬ l.Lists owner slot := by
  rw [lastBelow_eq_none_iff]
  exact ⟨fun none owner lists => none owner lists.lt_size lists, fun none owner _ => none owner⟩

/-- What the last that lists says, or else what was stored. -/
theorem or_lastBelow_eq_some_iff {ι : Type} {mk : Nat → ι} {index : ι → Nat}
    (index_mk : ∀ n, index (mk n) = n) (mk_index : ∀ x, mk (index x) = x) {stored : Option ι}
    {x : ι} :
    ((l.lastBelow slot l.lists.size).map mk).or stored = some x ↔
      l.ListsLast (index x) slot ∨ ((∀ owner, ¬ l.Lists owner slot) ∧ stored = some x) := by
  cases last : l.lastBelow slot l.lists.size with
  | none =>
    have none := lastBelow_size_eq_none_iff.mp last
    rw [Option.map_none, Option.none_or, and_iff_right none]
    exact (or_iff_right fun h => none _ h.1).symm
  | some owner =>
    have isLast := lastBelow_size_eq_some_iff.mp last
    rw [Option.map_some, Option.some_or, Option.some.injEq]
    constructor
    · rintro rfl
      rw [index_mk]
      exact .inl isLast
    · rintro (h | ⟨none, -⟩)
      · rw [Nat.le_antisymm (h.2 owner isLast.1) (isLast.2 _ h.1), mk_index]
      · exact absurd isLast.1 (none owner)

/-- Settled links are what the last that lists says. -/
theorem Settled.or_lastBelow {ι : Type} {mk : Nat → ι} {index : ι → Nat}
    (mk_index : ∀ x, mk (index x) = x) (settled : l.Settled) {stored : Option ι}
    (found : l.backs[slot]? = some (stored.map index)) :
    ((l.lastBelow slot l.lists.size).map mk).or stored = stored := by
  cases last : l.lastBelow slot l.lists.size with
  | none => rfl
  | some owner =>
    have linked := settled.back owner slot (lastBelow_size_eq_some_iff.mp last)
    rw [found, Option.some.injEq] at linked
    obtain ⟨x, rfl, rfl⟩ := Option.map_eq_some_iff.mp linked
    rw [Option.map_some, Option.some_or, mk_index]

-- ============================================================ one more that lists

/-- One more owner, to which all that it lists is linked back. -/
def adopt (l : Links) (slots : List Nat) : Links where
  lists := l.lists.push slots
  backs := l.backs.mapIdx fun slot back => if slot ∈ slots then some l.lists.size else back

private theorem lists_push_iff {slots : List Nat} {backs : Array (Option Nat)} :
    (Links.mk (l.lists.push slots) backs).Lists owner slot ↔
      l.Lists owner slot ∨ (owner = l.lists.size ∧ slot ∈ slots) := by
  unfold Lists
  simp only [Array.getElem?_push]
  by_cases new : owner = l.lists.size
  · simp [new]
  · simp [new]

/-- The one that is added last lists its slots last, so their back links lead to it. All other links
stay. -/
theorem Settled.adopt {slots : List Nat} (settled : l.Settled)
    (inside : ∀ slot ∈ slots, slot < l.backs.size) : (l.adopt slots).Settled := by
  constructor
  · intro owner slot lists
    rw [Links.adopt, Array.size_mapIdx]
    rcases lists_push_iff.mp lists with old | ⟨-, mem⟩
    · exact settled.inside owner slot old
    · exact inside slot mem
  · rintro owner slot ⟨lists, last⟩
    rw [Links.adopt, Array.getElem?_mapIdx]
    by_cases mem : slot ∈ slots
    -- the new owner comes behind all others
    · have new : l.lists.size ≤ owner := last _ (lists_push_iff.mpr (.inr ⟨rfl, mem⟩))
      rcases lists_push_iff.mp lists with old | ⟨rfl, -⟩
      · exact absurd old.lt_size (Nat.not_lt.mpr new)
      · rw [Array.getElem?_eq_getElem (inside slot mem)]
        simp [mem]
    · rcases lists_push_iff.mp lists with old | ⟨-, mem'⟩
      · have linked := settled.back owner slot
          ⟨old, fun other ofOther => last other (lists_push_iff.mpr (.inl ofOther))⟩
        rw [linked]
        simp [mem]
      · exact absurd mem' mem

/-- One more entry, which nobody lists. -/
theorem Settled.push (settled : l.Settled) (back : Option Nat) :
    (Links.mk l.lists (l.backs.push back)).Settled := by
  constructor
  · intro owner slot lists
    rw [Array.size_push]
    exact Nat.lt_succ_of_lt (settled.inside owner slot lists)
  · intro owner slot last
    have inside : slot < l.backs.size := settled.inside owner slot last.1
    rw [Array.getElem?_push, if_neg (Nat.ne_of_lt inside)]
    exact settled.back owner slot last

private theorem lists_append_iff {new : Nat} {backs : Array (Option Nat)}
    (exists_ : new < l.lists.size)
    {fresh : Nat} :
    (Links.mk (l.lists.modify new (· ++ [fresh])) backs).Lists owner slot ↔
      l.Lists owner slot ∨ (owner = new ∧ slot = fresh) := by
  unfold Lists
  simp only [Array.getElem?_modify]
  by_cases same : new = owner
  · subst same
    simp [Array.getElem?_eq_getElem exists_]
  · simp [same, Ne.symm same]

/-- One more entry, which one owner lists. -/
theorem Settled.append (settled : l.Settled) {new : Nat} (exists_ : new < l.lists.size) :
    (Links.mk (l.lists.modify new (· ++ [l.backs.size])) (l.backs.push (some new))).Settled := by
  constructor
  · intro owner slot lists
    rw [Array.size_push]
    rcases (lists_append_iff exists_).mp lists with old | ⟨-, rfl⟩
    · exact Nat.lt_succ_of_lt (settled.inside owner slot old)
    · exact Nat.lt_succ_self _
  · rintro owner slot ⟨lists, last⟩
    rw [Array.getElem?_push]
    rcases (lists_append_iff exists_).mp lists with old | ⟨rfl, rfl⟩
    · rw [if_neg (Nat.ne_of_lt (settled.inside owner slot old))]
      exact settled.back owner slot
        ⟨old, fun other ofOther => last other ((lists_append_iff exists_).mpr (.inl ofOther))⟩
    · rw [if_pos rfl]

-- ============================================================ linking them all

/-- The links when the owners below a bound have been gone through. -/
def linkedBelow (l : Links) (bound : Nat) : Links where
  lists := l.lists
  backs := l.backs.mapIdx fun slot back => (l.lastBelow slot bound).or back

/-- Going through one more owner overwrites the links of what it lists. -/
theorem mapIdx_lastBelow_succ {α : Type} {slots : List Nat}
    (lists : ∀ slot, l.Lists bound slot ↔ slot ∈ slots) (put : Nat → Option Nat → α → α)
    (set : α → α) (overwrites : ∀ slot back a, set (put slot back a) = put slot (some bound) a)
    {entries : Array α} :
    entries.mapIdx (fun slot a => put slot (l.lastBelow slot (bound + 1)) a) =
      (entries.mapIdx fun slot a => put slot (l.lastBelow slot bound) a).mapIdx fun slot a =>
        if slot ∈ slots then set a else a := by
  rw [Array.mapIdx_mapIdx]
  congr 1
  funext slot a
  rw [lastBelow_succ, Function.comp]
  by_cases mem : slot ∈ slots
  · rw [if_pos ((lists slot).mpr mem), if_pos mem, overwrites]
  · rw [if_neg (mt (lists slot).mp mem), if_neg mem]

/-- Linking owner by owner, up to all of them, settles the links. -/
private theorem settled_linkedBelow
    (inside : ∀ owner slot, l.Lists owner slot → slot < l.backs.size) :
    (l.linkedBelow l.lists.size).Settled := by
  constructor
  · intro owner slot lists
    rw [linkedBelow, Array.size_mapIdx]
    exact inside owner slot lists
  · intro owner slot last
    have known : l.lastBelow slot l.lists.size = some owner := lastBelow_size_eq_some_iff.mpr last
    rw [linkedBelow, Array.getElem?_mapIdx, known,
      Array.getElem?_eq_getElem (inside owner slot last.1)]
    rfl

end Links

-- ============================================================ changing many entries

private theorem entry_eq_ok_iff {α : Type} {table : Table} {entries : Array α} {index : Nat}
    {a : α} :
    entry table entries index = .ok a ↔ entries[index]? = some a := by
  constructor
  · exact eq_of_entry
  · intro found
    unfold entry
    rw [found]

/-- Changing an entry is possible just if there is one. -/
theorem modifyEntry_eq_ok_iff {α : Type} {table : Table} {entries entries' : Array α} {index : Nat}
    {change : α → α} : modifyEntry table entries index change = .ok entries' ↔
      index < entries.size ∧ entries' = entries.modify index change := by
  unfold modifyEntry
  by_cases inside : index < entries.size
  · rw [if_pos inside, Except.ok.injEq, eq_comm]
    exact (and_iff_right inside).symm
  · rw [if_neg inside]
    exact iff_of_false nofun fun known => inside known.1

private theorem mapIdx_eq_self {α : Type} {entries : Array α} {change : Nat → α → α}
    (same : ∀ (slot : Nat) a, entries[slot]? = some a → change slot a = a) :
    entries.mapIdx change = entries := by
  apply Array.ext_getElem?
  intro slot
  rw [Array.getElem?_mapIdx]
  cases found : entries[slot]? with
  | none => rfl
  | some a => rw [Option.map_some, same slot a found]

/-- A view of changed entries is the changed view, if the view of one entry is. -/
theorem map_mapIdx {α β : Type} {entries : Array α} {change : Nat → α → α} {f : α → β}
    {change' : Nat → β → β} (commutes : ∀ slot a, f (change slot a) = change' slot (f a)) :
    (entries.mapIdx change).map f = (entries.map f).mapIdx change' := by
  apply Array.ext_getElem?
  intro slot
  simp only [Array.getElem?_map, Array.getElem?_mapIdx, Option.map_map]
  congr 1
  funext a
  exact commutes slot a

/-- A change that leaves something of each entry alone leaves it alone in all of them. -/
theorem map_mapIdx_eq {α β : Type} {entries : Array α} {change : Nat → α → α} {f : α → β}
    (same : ∀ slot a, f (change slot a) = f a) : (entries.mapIdx change).map f = entries.map f := by
  have viewed : (entries.mapIdx change).map f = (entries.map f).mapIdx fun _ b => b :=
    map_mapIdx same
  rw [viewed, mapIdx_eq_self fun _ _ _ => rfl]

/-- Changing an entry and then others, where a change made twice is made once. -/
theorem mapIdx_modify {α : Type} {change : α → α} (again : ∀ a, change (change a) = change a)
    {entries : Array α} {index : Nat} {slots : List Nat} :
    (entries.modify index change).mapIdx (fun slot a => if slot ∈ slots then change a else a) =
      entries.mapIdx fun slot a => if slot ∈ index :: slots then change a else a := by
  apply Array.ext_getElem?
  intro slot
  rw [Array.getElem?_mapIdx, Array.getElem?_mapIdx, Array.getElem?_modify]
  by_cases here : index = slot
  · rw [if_pos here, Option.map_map]
    congr 1
    funext a
    by_cases more : slot ∈ slots
    · simp [more, again]
    · simp [more, here]
  · rw [if_neg here]
    simp [Ne.symm here]

/-- Changing several entries of a table in the same way, each perhaps more than once: this answers
if and only if all of them exist. -/
theorem foldlM_modifyEntry_eq_ok_iff {σ α ι : Type} (get : σ → Array α) (set : σ → Array α → σ)
    (change : α → α) (get_set : ∀ s entries, get (set s entries) = entries)
    (set_get : ∀ s, set s (get s) = s)
    (set_set : ∀ s entries entries', set (set s entries) entries' = set s entries')
    (again : ∀ a, change (change a) = change a) {table : Table} {index : ι → Nat}
    {ids : List ι} {s s' : σ} :
    ids.foldlM (fun s id => do
        let entries ← modifyEntry table (get s) (index id) change
        return set s entries) s = Except.ok s' ↔
      (∀ id ∈ ids, index id < (get s).size)
      ∧ s' = set s ((get s).mapIdx fun slot a => if slot ∈ ids.map index then change a else a) := by
  induction ids generalizing s with
  | nil =>
    have same :
        (get s).mapIdx (fun slot a => if slot ∈ [].map index then change a else a) = get s := by
      apply Array.ext_getElem?
      simp
    rw [same, set_get]
    simp only [List.not_mem_nil, false_implies, implies_true, true_and]
    exact ⟨fun h => (Except.ok.inj h).symm, fun h => congrArg _ h.symm⟩
  | cons id ids ih =>
    -- a slot that comes up again is changed again, and that makes no difference
    rw [List.foldlM_cons, List.map_cons, ← mapIdx_modify again]
    constructor
    · intro run
      obtain ⟨next, step, rest⟩ := bind_eq_ok.mp run
      obtain ⟨entries, changed, same⟩ := bind_eq_ok.mp step
      obtain ⟨inside, rfl⟩ := modifyEntry_eq_ok_iff.mp changed
      cases same
      obtain ⟨insideRest, rfl⟩ := ih.mp rest
      rw [get_set] at insideRest ⊢
      rw [Array.size_modify] at insideRest
      exact ⟨List.forall_mem_cons.mpr ⟨inside, insideRest⟩, set_set _ _ _⟩
    · rintro ⟨inside, rfl⟩
      obtain ⟨insideHead, insideRest⟩ := List.forall_mem_cons.mp inside
      have changed : modifyEntry table (get s) (index id) change =
          .ok ((get s).modify (index id) change) := modifyEntry_eq_ok_iff.mpr ⟨insideHead, rfl⟩
      refine bind_eq_ok.mpr ⟨_, bind_eq_ok.mpr ⟨_, changed, rfl⟩, ih.mpr ⟨?_, ?_⟩⟩
      · rw [get_set, Array.size_modify]
        exact insideRest
      · rw [get_set, set_set]

namespace TranslationUnit

variable {u v : TranslationUnit}

-- ============================================================ the links of a unit

/-- Statements and their children. -/
def nesting (u : TranslationUnit) : Links where
  lists := u.statements.map (·.children.map StmtId.index)
  backs := u.statements.map (·.parent.map StmtId.index)

/-- Statements and the variables that they declare. -/
def declarations (u : TranslationUnit) : Links where
  lists := u.statements.map (·.declared.map VariableId.index)
  backs := u.vars.map (·.declStmt.map StmtId.index)

/-- Functions and their parameters. -/
def parameters (u : TranslationUnit) : Links where
  lists := u.functions.map (·.params.map VariableId.index)
  backs := u.vars.map (·.function.map FunctionId.index)

/-- Every statement is an owner, of children and of variables. -/
theorem size_nesting : u.nesting.lists.size = u.statements.size := Array.size_map

theorem size_declarations : u.declarations.lists.size = u.statements.size := Array.size_map

theorem size_parameters : u.parameters.lists.size = u.functions.size := Array.size_map

/-- All links of a unit are settled. -/
structure Settled (u : TranslationUnit) : Prop where
  nesting : u.nesting.Settled
  declarations : u.declarations.Settled
  parameters : u.parameters.Settled

/-- Whatever the links of a unit list exists. -/
structure ListsInside (u : TranslationUnit) : Prop where
  nesting : ∀ owner slot, u.nesting.Lists owner slot → slot < u.statements.size
  declarations : ∀ owner slot, u.declarations.Lists owner slot → slot < u.vars.size
  parameters : ∀ owner slot, u.parameters.Lists owner slot → slot < u.vars.size

/-- Where links are settled, all that is listed is there. -/
theorem Settled.listsInside (settled : u.Settled) : u.ListsInside where
  nesting owner slot lists := by
    simpa [TranslationUnit.nesting] using settled.nesting.inside _ _ lists
  declarations owner slot lists := by
    simpa [TranslationUnit.declarations] using settled.declarations.inside _ _ lists
  parameters owner slot lists := by
    simpa [TranslationUnit.parameters] using settled.parameters.inside _ _ lists

section Lists

variable {owner slot : Nat}

private theorem nesting_lists_iff : u.nesting.Lists owner slot ↔
    ∃ s, u.statements[owner]? = some s ∧ slot ∈ s.children.map StmtId.index := by
  simp [Links.Lists, nesting]

private theorem declarations_lists_iff : u.declarations.Lists owner slot ↔
    ∃ s, u.statements[owner]? = some s ∧ slot ∈ s.declared.map VariableId.index := by
  simp [Links.Lists, declarations]

private theorem parameters_lists_iff : u.parameters.Lists owner slot ↔
    ∃ f, u.functions[owner]? = some f ∧ slot ∈ f.params.map VariableId.index := by
  simp [Links.Lists, parameters]

end Lists

-- ============================================================ one owner

/-- The statements, with the parent of some of them set. -/
def withParent (u : TranslationUnit) (parent : StmtId) (slots : List Nat) : TranslationUnit :=
  { u with statements := u.statements.mapIdx fun slot s =>
      if slot ∈ slots then { s with parent := some parent } else s }

/-- The variables, with the declaring statement of some of them set. -/
def withDeclStmt (u : TranslationUnit) (stmt : StmtId) (slots : List Nat) : TranslationUnit :=
  { u with vars := u.vars.mapIdx fun slot d =>
      if slot ∈ slots then { d with declStmt := some stmt } else d }

/-- The variables, with the function of some of them set. -/
def withOwner (u : TranslationUnit) (f : FunctionId) (slots : List Nat) : TranslationUnit :=
  { u with vars := u.vars.mapIdx fun slot d =>
      if slot ∈ slots then { d with function := some f } else d }

/-- Setting the parent of one child after the other is setting it for all of them at once. -/
private theorem foldlM_setParent_eq_ok_iff {parent : StmtId} {children : List StmtId} :
    children.foldlM (setParent parent) u = .ok v ↔
      (∀ id ∈ children, id.index < u.statements.size)
      ∧ v = u.withParent parent (children.map StmtId.index) :=
  foldlM_modifyEntry_eq_ok_iff TranslationUnit.statements
    (fun u statements => { u with statements }) (fun s => { s with parent := some parent })
    (fun _ _ => rfl) (fun _ => rfl) (fun _ _ _ => rfl)
    fun _ => rfl

private theorem foldlM_setDeclStmt_eq_ok_iff {stmt : StmtId} {declared : List VariableId} :
    declared.foldlM (setDeclStmt stmt) u = .ok v ↔
      (∀ id ∈ declared, id.index < u.vars.size)
      ∧ v = u.withDeclStmt stmt (declared.map VariableId.index) :=
  foldlM_modifyEntry_eq_ok_iff TranslationUnit.vars (fun u vars => { u with vars })
    (fun d => { d with declStmt := some stmt }) (fun _ _ => rfl) (fun _ => rfl) (fun _ _ _ => rfl)
    fun _ => rfl

/-- Setting the owner of one parameter after the other is setting it for all of them at once. -/
theorem foldlM_setOwner_eq_ok_iff {f : FunctionId} {params : List VariableId} :
    params.foldlM (setOwner f) u = .ok v ↔
      (∀ id ∈ params, id.index < u.vars.size)
      ∧ v = u.withOwner f (params.map VariableId.index) :=
  foldlM_modifyEntry_eq_ok_iff TranslationUnit.vars (fun u vars => { u with vars })
    (fun d => { d with function := some f }) (fun _ _ => rfl) (fun _ => rfl) (fun _ _ _ => rfl)
    fun _ => rfl

/-- A statement adopts its children and the variables that it declares, if they exist. -/
theorem adopt_eq_ok_iff {id : StmtId} : u.adopt id = .ok v ↔
    ∃ s, u.statements[id.index]? = some s
      ∧ (∀ child ∈ s.children, child.index < u.statements.size)
      ∧ (∀ var ∈ s.declared, var.index < u.vars.size)
      ∧ v = (u.withParent id (s.children.map StmtId.index)).withDeclStmt id
        (s.declared.map VariableId.index) := by
  unfold adopt
  simp only [bind_eq_ok, statement_eq_ok_iff, foldlM_setParent_eq_ok_iff,
    foldlM_setDeclStmt_eq_ok_iff]
  constructor
  · rintro ⟨s, found, w, ⟨children, rfl⟩, declared, rfl⟩
    exact ⟨s, found, children, declared, rfl⟩
  · rintro ⟨s, found, children, declared, rfl⟩
    exact ⟨s, found, _, ⟨children, rfl⟩, declared, rfl⟩

/-- What a function takes is linked back to it at once. -/
private theorem own_eq_ok_iff {id : FunctionId} : u.own id = .ok v ↔
    ∃ f, u.functions[id.index]? = some f ∧ (∀ param ∈ f.params, param.index < u.vars.size)
      ∧ v = u.withOwner id (f.params.map VariableId.index) := by
  unfold own function
  simp only [bind_eq_ok, entry_eq_ok_iff, foldlM_setOwner_eq_ok_iff]

-- ============================================================ all owners

/-- The statements, when those below a bound have been gone through. -/
def linkedStatements (u : TranslationUnit) (bound : Nat) : Array Stmt :=
  u.statements.mapIdx fun slot s =>
    { s with parent := ((u.nesting.lastBelow slot bound).map StmtId.mk).or s.parent }

/-- The variables, when the statements below one bound and the functions below another have been
gone through. -/
def linkedVars (u : TranslationUnit) (statements functions : Nat) : Array VariableDecl :=
  u.vars.mapIdx fun slot d =>
    { d with
      declStmt := ((u.declarations.lastBelow slot statements).map StmtId.mk).or d.declStmt
      function := ((u.parameters.lastBelow slot functions).map FunctionId.mk).or d.function }

/-- The unit, when the statements below one bound and the functions below another have been gone
through. -/
def linkedBelow (u : TranslationUnit) (statements functions : Nat) : TranslationUnit :=
  { u with
    statements := u.linkedStatements statements
    vars := u.linkedVars statements functions }

/-- Going through owners leaves a unit alone if it leaves each entry alone. -/
theorem linkedBelow_eq_self {m n : Nat}
    (parents : ∀ (slot : Nat) s, u.statements[slot]? = some s →
      ((u.nesting.lastBelow slot m).map StmtId.mk).or s.parent = s.parent)
    (declStmts : ∀ (slot : Nat) d, u.vars[slot]? = some d →
      ((u.declarations.lastBelow slot m).map StmtId.mk).or d.declStmt = d.declStmt)
    (owners : ∀ (slot : Nat) d, u.vars[slot]? = some d →
      ((u.parameters.lastBelow slot n).map FunctionId.mk).or d.function = d.function) :
    u.linkedBelow m n = u := by
  have statements : u.linkedStatements m = u.statements := by
    refine mapIdx_eq_self fun slot s found => ?_
    rw [parents slot s found]
  have vars : u.linkedVars m n = u.vars := by
    refine mapIdx_eq_self fun slot d found => ?_
    rw [declStmts slot d found, owners slot d found]
  unfold linkedBelow
  rw [statements, vars]

private theorem linkedBelow_zero : u.linkedBelow 0 0 = u :=
  linkedBelow_eq_self (fun _ _ _ => rfl) (fun _ _ _ => rfl) fun _ _ _ => rfl

section Succ

variable {m n : Nat} {slots : List Nat}

private theorem linkedStatements_succ (lists : ∀ slot, u.nesting.Lists m slot ↔ slot ∈ slots) :
    u.linkedStatements (m + 1) = (u.linkedStatements m).mapIdx fun slot s =>
      if slot ∈ slots then { s with parent := some ⟨m⟩ } else s :=
  Links.mapIdx_lastBelow_succ lists
    (fun _ back (s : Stmt) => { s with parent := (back.map StmtId.mk).or s.parent })
    (fun s => { s with parent := some ⟨m⟩ }) fun _ _ _ => rfl

private theorem linkedVars_succ_left (lists : ∀ slot, u.declarations.Lists m slot ↔ slot ∈ slots) :
    u.linkedVars (m + 1) n = (u.linkedVars m n).mapIdx fun slot d =>
      if slot ∈ slots then { d with declStmt := some ⟨m⟩ } else d :=
  Links.mapIdx_lastBelow_succ lists
    (fun slot back (d : VariableDecl) => { d with
      declStmt := (back.map StmtId.mk).or d.declStmt
      function := ((u.parameters.lastBelow slot n).map FunctionId.mk).or d.function })
    (fun d => { d with declStmt := some ⟨m⟩ }) fun _ _ _ => rfl

private theorem linkedVars_succ_right (lists : ∀ slot, u.parameters.Lists n slot ↔ slot ∈ slots) :
    u.linkedVars m (n + 1) = (u.linkedVars m n).mapIdx fun slot d =>
      if slot ∈ slots then { d with function := some ⟨n⟩ } else d :=
  Links.mapIdx_lastBelow_succ lists
    (fun slot back (d : VariableDecl) => { d with
      declStmt := ((u.declarations.lastBelow slot m).map StmtId.mk).or d.declStmt
      function := (back.map FunctionId.mk).or d.function })
    (fun d => { d with function := some ⟨n⟩ }) fun _ _ _ => rfl

end Succ

/-- Adopting the next statement is one step of linking: it comes last of those that have been gone
through. -/
private theorem adopt_linkedBelow (inside : u.ListsInside) {m n : Nat}
    (below : m < u.statements.size) :
    (u.linkedBelow m n).adopt ⟨m⟩ = .ok (u.linkedBelow (m + 1) n) := by
  obtain ⟨s, found⟩ : ∃ s, u.statements[m]? = some s := ⟨_, Array.getElem?_eq_getElem below⟩
  have children (slot : Nat) : u.nesting.Lists m slot ↔ slot ∈ s.children.map StmtId.index := by
    simp [nesting_lists_iff, found]
  have declared (slot : Nat) :
      u.declarations.Lists m slot ↔ slot ∈ s.declared.map VariableId.index := by
    simp [declarations_lists_iff, found]
  rw [adopt_eq_ok_iff]
  refine ⟨{ s with parent := ((u.nesting.lastBelow m m).map StmtId.mk).or s.parent },
    ?_, ?_, ?_, ?_⟩
  · simp [linkedBelow, linkedStatements, found]
  · intro child mem
    have lists := (children _).mpr (List.mem_map_of_mem mem)
    simpa [linkedBelow, linkedStatements] using inside.nesting _ _ lists
  · intro var mem
    have lists := (declared _).mpr (List.mem_map_of_mem mem)
    simpa [linkedBelow, linkedVars] using inside.declarations _ _ lists
  · unfold linkedBelow
    rw [linkedStatements_succ children, linkedVars_succ_left declared]
    rfl

/-- Owning by the next function is one step of linking. -/
private theorem own_linkedBelow (inside : u.ListsInside) {m n : Nat}
    (below : n < u.functions.size) :
    (u.linkedBelow m n).own ⟨n⟩ = .ok (u.linkedBelow m (n + 1)) := by
  obtain ⟨f, found⟩ : ∃ f, u.functions[n]? = some f := ⟨_, Array.getElem?_eq_getElem below⟩
  have params (slot : Nat) :
      u.parameters.Lists n slot ↔ slot ∈ f.params.map VariableId.index := by
    simp [parameters_lists_iff, found]
  rw [own_eq_ok_iff]
  refine ⟨f, found, ?_, ?_⟩
  · intro param mem
    have lists := (params _).mpr (List.mem_map_of_mem mem)
    simpa [linkedBelow, linkedVars] using inside.parameters _ _ lists
  · unfold linkedBelow
    rw [linkedVars_succ_right params]
    rfl

/-- Linking goes through all owners, and answers if whatever they list exists. -/
theorem link_eq (inside : u.ListsInside) :
    u.link = .ok (u.linkedBelow u.statements.size u.functions.size) := by
  have adopts (m : Nat) (below : m ≤ u.statements.size) :
      ((List.range m).map StmtId.mk).foldlM adopt u = .ok (u.linkedBelow m 0) := by
    induction m with
    | zero => exact congrArg _ linkedBelow_zero.symm
    | succ m ih =>
      rw [List.range_succ, List.map_append, List.foldlM_append, ih (by omega), ok_bind]
      exact bind_eq_ok.mpr ⟨_, adopt_linkedBelow inside below, rfl⟩
  have owns (n : Nat) (below : n ≤ u.functions.size) :
      ((List.range n).map FunctionId.mk).foldlM own (u.linkedBelow u.statements.size 0) =
        .ok (u.linkedBelow u.statements.size n) := by
    induction n with
    | zero => rfl
    | succ n ih =>
      rw [List.range_succ, List.map_append, List.foldlM_append, ih (by omega), ok_bind]
      exact bind_eq_ok.mpr ⟨_, own_linkedBelow inside below, rfl⟩
  exact bind_eq_ok.mpr ⟨_, adopts _ (Nat.le_refl _), owns _ (Nat.le_refl _)⟩

-- ============================================================ settled units

/-- Linking a unit whose links are settled changes nothing. -/
theorem Settled.link_eq (settled : u.Settled) : u.link = .ok u := by
  rw [TranslationUnit.link_eq settled.listsInside]
  congr 1
  refine linkedBelow_eq_self (fun slot s found => ?_) (fun slot d found => ?_)
    fun slot d found => ?_
  · rw [← size_nesting]
    refine settled.nesting.or_lastBelow (fun _ => rfl) ?_
    simp [TranslationUnit.nesting, found]
  · rw [← size_declarations]
    refine settled.declarations.or_lastBelow (fun _ => rfl) ?_
    simp [TranslationUnit.declarations, found]
  · rw [← size_parameters]
    refine settled.parameters.or_lastBelow (fun _ => rfl) ?_
    simp [TranslationUnit.parameters, found]

/-- The back links of entries that have been gone through. -/
theorem map_back_mapIdx {α ι : Type} {mk : Nat → ι} {index : ι → Nat}
    (index_mk : ∀ n, index (mk n) = n) {entries : Array α} {back : α → Option ι}
    {last : Nat → Option Nat} {change : Nat → α → α}
    (changed : ∀ slot a, back (change slot a) = ((last slot).map mk).or (back a)) :
    (entries.mapIdx change).map (fun a => (back a).map index) =
      (entries.map fun a => (back a).map index).mapIdx fun slot b => (last slot).or b := by
  refine map_mapIdx fun slot a => ?_
  rw [changed]
  cases last slot with
  | none => rfl
  | some owner => simp [index_mk]

section LinkedBelow

variable {m n : Nat}

private theorem nesting_linkedBelow : (u.linkedBelow m n).nesting = u.nesting.linkedBelow m :=
  congrArg₂ Links.mk (map_mapIdx_eq fun _ _ => rfl)
    (map_back_mapIdx (fun _ => rfl) fun _ _ => rfl)

private theorem declarations_linkedBelow :
    (u.linkedBelow m n).declarations = u.declarations.linkedBelow m :=
  congrArg₂ Links.mk (map_mapIdx_eq fun _ _ => rfl)
    (map_back_mapIdx (fun _ => rfl) fun _ _ => rfl)

private theorem parameters_linkedBelow :
    (u.linkedBelow m n).parameters = u.parameters.linkedBelow n :=
  congrArg (Links.mk _) (map_back_mapIdx (fun _ => rfl) fun _ _ => rfl)

end LinkedBelow

/-- Linking settles the links of a unit. -/
theorem settled_of_link (inside : u.ListsInside) (link : u.link = .ok v) : v.Settled := by
  rw [link_eq inside] at link
  cases link
  refine ⟨?_, ?_, ?_⟩
  · rw [nesting_linkedBelow, ← size_nesting]
    refine Links.settled_linkedBelow fun owner slot lists => ?_
    simpa [nesting] using inside.nesting owner slot lists
  · rw [declarations_linkedBelow, ← size_declarations]
    refine Links.settled_linkedBelow fun owner slot lists => ?_
    simpa [declarations] using inside.declarations owner slot lists
  · rw [parameters_linkedBelow, ← size_parameters]
    refine Links.settled_linkedBelow fun owner slot lists => ?_
    simpa [parameters] using inside.parameters owner slot lists

/-- A consistent unit lists nothing that is not there. -/
theorem Consistent.listsInside (c : u.Consistent) : u.ListsInside := by
  refine ⟨fun owner slot lists => ?_, fun owner slot lists => ?_, fun owner slot lists => ?_⟩
  · obtain ⟨s, found, mem⟩ := nesting_lists_iff.mp lists
    obtain ⟨child, memChild, rfl⟩ := List.mem_map.mp mem
    exact ((fits_of_stmt (c.statements owner s found)).children child memChild).1
  · obtain ⟨s, found, mem⟩ := declarations_lists_iff.mp lists
    obtain ⟨var, memVar, rfl⟩ := List.mem_map.mp mem
    exact (fits_of_stmt (c.statements owner s found)).declared var memVar
  · obtain ⟨f, found, mem⟩ := parameters_lists_iff.mp lists
    obtain ⟨param, memParam, rfl⟩ := List.mem_map.mp mem
    exact (fits_of_function (c.functions owner f found)).params param memParam

-- ============================================================ variables of a linked unit

/-- A statement declares a variable. -/
def Declares (u : TranslationUnit) (stmt : StmtId) (var : VariableId) : Prop :=
  ∃ s, u.statement stmt = .ok s ∧ var ∈ s.declared

/-- A function has a variable among its parameters. -/
def Takes (u : TranslationUnit) (f : FunctionId) (var : VariableId) : Prop :=
  ∃ d, u.function f = .ok d ∧ var ∈ d.params

/-- The last statement of the table that declares a variable. -/
def DeclaresLast (u : TranslationUnit) (stmt : StmtId) (var : VariableId) : Prop :=
  u.Declares stmt var ∧ ∀ other, u.Declares other var → other.index ≤ stmt.index

/-- The last function of the table that has a variable among its parameters. -/
def TakesLast (u : TranslationUnit) (f : FunctionId) (var : VariableId) : Prop :=
  u.Takes f var ∧ ∀ other, u.Takes other var → other.index ≤ f.index

/-- A variable is linked to a statement as its declaration. -/
def DeclaredIn (u : TranslationUnit) (var : VariableId) (stmt : StmtId) : Prop :=
  ∃ d, u.variableDecl var = .ok d ∧ d.declStmt = some stmt

/-- A variable is linked to a function as its owner. -/
def OwnedBy (u : TranslationUnit) (var : VariableId) (f : FunctionId) : Prop :=
  ∃ d, u.variableDecl var = .ok d ∧ d.function = some f

section Variables

variable {stmt : StmtId} {f : FunctionId} {var : VariableId}

/-- A variable is its slot. -/
theorem index_injective : Function.Injective VariableId.index := by
  rintro ⟨n⟩ ⟨_⟩ rfl
  rfl

private theorem declares_iff : u.Declares stmt var ↔ u.declarations.Lists stmt.index var.index := by
  simp only [Declares, statement_eq_ok_iff, declarations_lists_iff,
    List.mem_map_of_injective index_injective]

private theorem takes_iff : u.Takes f var ↔ u.parameters.Lists f.index var.index := by
  simp only [Takes, function, entry_eq_ok_iff, parameters_lists_iff,
    List.mem_map_of_injective index_injective]

/-- To be declared last, said of statements and variables, is to be listed last, said of slots. -/
theorem declaresLast_iff :
    u.DeclaresLast stmt var ↔ u.declarations.ListsLast stmt.index var.index := by
  simp only [DeclaresLast, declares_iff]
  exact and_congr_right fun _ =>
    ⟨fun last other => last ⟨other⟩, fun last other => last other.index⟩

/-- The same for parameters. -/
theorem takesLast_iff : u.TakesLast f var ↔ u.parameters.ListsLast f.index var.index := by
  simp only [TakesLast, takes_iff]
  exact and_congr_right fun _ =>
    ⟨fun last other => last ⟨other⟩, fun last other => last other.index⟩

variable (listsInside : u.ListsInside) (link : u.link = .ok v) (inside : u.Holds .vars var.index)
include listsInside link inside

/-- The variables of a linked unit. -/
theorem variableDecl_link : ∃ d, u.variableDecl var = .ok d ∧ v.variableDecl var = .ok { d with
    declStmt := ((u.declarations.lastBelow var.index u.declarations.lists.size).map
      StmtId.mk).or d.declStmt
    function := ((u.parameters.lastBelow var.index u.parameters.lists.size).map
      FunctionId.mk).or d.function } := by
  rw [link_eq listsInside] at link
  cases link
  have found : u.vars[var.index]? = some _ := Array.getElem?_eq_getElem inside
  refine ⟨_, entry_eq_ok_iff.mpr found, entry_eq_ok_iff.mpr ?_⟩
  rw [size_declarations, size_parameters]
  simp [linkedBelow, linkedVars, found]

/-- In a linked unit a variable is declared in the last statement that declares it, or if there is
none, in the one that was stored. -/
theorem declaredIn_link_iff : v.DeclaredIn var stmt ↔
    u.DeclaresLast stmt var ∨ ((∀ other, ¬ u.Declares other var) ∧ u.DeclaredIn var stmt) := by
  obtain ⟨d, stored, linked⟩ := variableDecl_link listsInside link inside
  have none_iff : (∀ other, ¬ u.Declares other var) ↔
      ∀ owner, ¬ u.declarations.Lists owner var.index := by
    simp only [declares_iff]
    exact ⟨fun none owner => none ⟨owner⟩, fun none other => none other.index⟩
  simp only [DeclaredIn, stored, linked, Except.ok.injEq, exists_eq_left', declaresLast_iff,
    none_iff]
  exact Links.or_lastBelow_eq_some_iff (fun _ => rfl) fun _ => rfl

/-- In a linked unit a variable is owned by the last function that has it among its parameters, or
if there is none, by the one that was stored. -/
theorem ownedBy_link_iff : v.OwnedBy var f ↔
    u.TakesLast f var ∨ ((∀ other, ¬ u.Takes other var) ∧ u.OwnedBy var f) := by
  obtain ⟨d, stored, linked⟩ := variableDecl_link listsInside link inside
  have none_iff : (∀ other, ¬ u.Takes other var) ↔
      ∀ owner, ¬ u.parameters.Lists owner var.index := by
    simp only [takes_iff]
    exact ⟨fun none owner => none ⟨owner⟩, fun none other => none other.index⟩
  simp only [OwnedBy, stored, linked, Except.ok.injEq, exists_eq_left', takesLast_iff, none_iff]
  exact Links.or_lastBelow_eq_some_iff (fun _ => rfl) fun _ => rfl

end Variables

end TranslationUnit

end SafeDialect
