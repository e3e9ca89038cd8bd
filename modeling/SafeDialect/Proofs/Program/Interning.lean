/-
The canonical slot identifies the type.

A table that is grown by interning hands out a slot that holds the layer it is asked for, and makes
a new one only if there is none. So no layer is held twice. It also stores what a pointer, a
reference or an array is made of with synonyms followed. These two facts, together with the order of
the slots, are the invariant `Neat`, which one interning keeps and so every sequence of them does.

What a type *is* is said without slots, by the tree that is left when each synonym is replaced by
what it stands for, at every level. Trees may be infinitely many and slots are handed out one by
one, and yet in a neat table two types have the same tree if and only if their synonyms end at the
same slot with the same `const`: the tree is taken apart from the top, and each level determines the
slot once the level below is known to. Function types are left out, because what they are made of is
stored as it is given.
-/
import Mathlib.Logic.ExistsUnique
import Mathlib.Logic.Relation
import SafeDialect.Proofs.Program.Growth

namespace SafeDialect

open Relation

-- ============================================================ layers around one type

/-- How a layer is made of one other type. -/
inductive Wrapper where
  | pointer
  | lvalueReference
  | rvalueReference
  | array (size : Option Nat)
  deriving DecidableEq

/-- The layer around a type. -/
def Wrapper.around : Wrapper → QualifiedType → TypeShape
  | pointer, q => .pointer q
  | lvalueReference, q => .lvalueReference q
  | rvalueReference, q => .rvalueReference q
  | array size, q => .array q size

namespace Wrapper

variable {w w' : Wrapper} {q q' : QualifiedType}

/-- A wrapper is around one type. -/
@[simp]
theorem components_around : (w.around q).components = [q] := by
  cases w <;> rfl

/-- And is no synonym of it. -/
@[simp]
theorem isSynonym_around : (w.around q).isSynonym = false := by
  cases w <;> rfl

private theorem around_inj : w.around q = w'.around q' ↔ w = w' ∧ q = q' := by
  cases w <;> cases w' <;> simp [around]
  exact and_comm

end Wrapper

/-- A layer has no components, or is around one type, or is a synonym or a function. -/
theorem TypeShape.kinds (shape : TypeShape) :
    shape.components = [] ∨ (∃ w q, shape = Wrapper.around w q)
      ∨ (∃ name target, shape = .synonym name target)
      ∨ ∃ ret params, shape = .function ret params := by
  cases shape with
  | builtin | enum | record | templateParam | dependent => exact .inl rfl
  | pointer q => exact .inr (.inl ⟨.pointer, q, rfl⟩)
  | lvalueReference q => exact .inr (.inl ⟨.lvalueReference, q, rfl⟩)
  | rvalueReference q => exact .inr (.inl ⟨.rvalueReference, q, rfl⟩)
  | array q size => exact .inr (.inl ⟨.array size, q, rfl⟩)
  | synonym name target => exact .inr (.inr (.inl ⟨name, target, rfl⟩))
  | function ret params => exact .inr (.inr (.inr ⟨ret, params, rfl⟩))

private theorem TypeShape.isSynonym_of_bare {shape : TypeShape} (bare : shape.components = []) :
    shape.isSynonym = false := by
  cases shape with
  | synonym => cases bare
  | _ => rfl

-- ============================================================ types written out

/-- A type written out, without synonyms and without slots. -/
inductive TypeTree where
  /-- A layer without components. -/
  | atom (isConst : Bool) (shape : TypeShape)
  | wrapped (isConst : Bool) (wrapper : Wrapper) (content : TypeTree)
  deriving DecidableEq

namespace TypeTable

variable {t t' : TypeTable} {q q' r r' : QualifiedType} {tree tree' : TypeTree} {shape : TypeShape}
  {id : TypeId}

/-- Unfolding a type: each synonym is replaced by what it stands for, with its own `const` and that
of the synonym kept, at every level of pointers, references and arrays. -/
inductive Unfolds (t : TypeTable) : QualifiedType → TypeTree → Prop where
  | atom {q : QualifiedType} {shape : TypeShape} (look : t.shape q.id = .ok shape)
      (bare : shape.components = []) : Unfolds t q (.atom q.isConst shape)
  | wrapped {q content : QualifiedType} {w : Wrapper} {tree : TypeTree}
      (look : t.shape q.id = .ok (w.around content)) (inner : Unfolds t content tree) :
      Unfolds t q (.wrapped q.isConst w tree)
  | synonym {q target : QualifiedType} {name : String} {tree : TypeTree}
      (look : t.shape q.id = .ok (.synonym name target))
      (rest : Unfolds t ⟨target.id, q.isConst || target.isConst⟩ tree) : Unfolds t q tree

/-- A type that is no synonym. -/
def Plain (t : TypeTable) (q : QualifiedType) : Prop :=
  ∃ shape, t.shape q.id = .ok shape ∧ shape.isSynonym = false

private theorem Plain.not_synonym (plain : t.Plain q) {name : String} :
    t.shape q.id ≠ .ok (.synonym name q') := by
  intro look
  obtain ⟨shape, look', notSynonym⟩ := plain
  rw [look] at look'
  cases look'
  cases notSynonym

/-- A plain slot is canonical. -/
theorem Plain.isCanonical (plain : t.Plain q) : t.isCanonical q = .ok true := by
  obtain ⟨shape, look, notSynonym⟩ := plain
  unfold TypeTable.isCanonical
  rw [look, ok_bind, notSynonym]
  rfl

/-- In an ordered table synonyms lead to earlier slots and so to an end, which is plain. -/
theorem Ordered.canonical_ends {π : Fault → Prop} (ordered : t.Ordered)
    (inside : q.id.index < t.size) :
    Ends π (t.canonical q) fun r => r.id.index ≤ q.id.index ∧ t.Plain r :=
  ordered.resolve_ends inside (Nat.lt_succ_of_lt inside)

/-- A type is made of another one, directly. -/
def MadeOf (t : TypeTable) (whole part : TypeId) : Prop :=
  ∃ shape q, t.shape whole = .ok shape ∧ q ∈ shape.components ∧ q.id = part

/-- Neither a type nor anything that it is made of is a function. -/
def FunctionFree (t : TypeTable) (q : QualifiedType) : Prop :=
  ∀ id, ReflTransGen t.MadeOf q.id id → ∀ ret params, t.shape id ≠ .ok (.function ret params)

/-- What is free of functions is made of parts that are. -/
theorem FunctionFree.part (free : t.FunctionFree q) (look : t.shape q.id = .ok shape)
    (mem : q' ∈ shape.components) {isConst : Bool} : t.FunctionFree ⟨q'.id, isConst⟩ := by
  intro id chain
  exact free id (.head ⟨shape, q', look, mem, rfl⟩ chain)

private theorem functionFree_of_none
    (none : ∀ shape ∈ t.shapes, ∀ ret params, shape ≠ .function ret params)
    (q : QualifiedType) : t.FunctionFree q := by
  intro id _ ret params look
  exact none _ (Array.mem_of_getElem? (eq_of_entry look)) ret params rfl

private theorem Unfolds.inv_atom (plain : t.Plain q) {isConst : Bool}
    (unfolds : t.Unfolds q (.atom isConst shape)) :
    q.isConst = isConst ∧ t.shape q.id = .ok shape ∧ shape.components = [] := by
  generalize whole : TypeTree.atom isConst shape = tree at unfolds
  cases unfolds with
  | atom look bare =>
    cases whole
    exact ⟨rfl, look, bare⟩
  | wrapped => cases whole
  | synonym look => exact absurd look plain.not_synonym

private theorem Unfolds.inv_wrapped (plain : t.Plain q) {isConst : Bool} {w : Wrapper}
    (unfolds : t.Unfolds q (.wrapped isConst w tree)) : q.isConst = isConst
      ∧ ∃ content, t.shape q.id = .ok (w.around content) ∧ t.Unfolds content tree := by
  generalize whole : TypeTree.wrapped isConst w tree = tree' at unfolds
  cases unfolds with
  | atom => cases whole
  | wrapped look inner =>
    cases whole
    exact ⟨rfl, _, look, inner⟩
  | synonym look => exact absurd look plain.not_synonym

private theorem unfolds_synonym_iff {name : String} (look : t.shape q.id = .ok (.synonym name q')) :
    t.Unfolds q tree ↔ t.Unfolds ⟨q'.id, q.isConst || q'.isConst⟩ tree := by
  constructor
  · intro unfolds
    cases unfolds with
    | atom look' bare =>
      rw [look] at look'
      cases look'
      cases bare
    | wrapped look' =>
      rw [look] at look'
      have same := congrArg TypeShape.isSynonym (Except.ok.inj look')
      rw [Wrapper.isSynonym_around] at same
      cases same
    | synonym look' rest =>
      rw [look] at look'
      cases look'
      exact rest
  · exact .synonym look

/-- Following synonyms does not change the tree. -/
theorem unfolds_resolve_iff {steps : Nat} (ends : t.resolve steps q = .ok r) :
    t.Unfolds q tree ↔ t.Unfolds r tree := by
  induction steps generalizing q with
  | zero => cases ends
  | succ steps ih =>
    unfold resolve at ends
    split at ends
    · cases ends
    · next look =>
      rw [unfolds_synonym_iff look]
      exact ih ends
    · cases ends
      exact Iff.rfl

/-- A type has at most one tree. -/
theorem Unfolds.unique (unfolds : t.Unfolds q tree) (unfolds' : t.Unfolds q tree') :
    tree = tree' := by
  induction unfolds generalizing tree' with
  | @atom q shape look bare =>
    -- a plain type is no synonym, so the other tree starts with the same layer
    have plain : t.Plain q := ⟨shape, look, TypeShape.isSynonym_of_bare bare⟩
    cases tree' with
    | atom =>
      obtain ⟨rfl, look', -⟩ := unfolds'.inv_atom plain
      rw [look] at look'
      cases look'
      rfl
    | wrapped =>
      obtain ⟨-, content, look', -⟩ := unfolds'.inv_wrapped plain
      rw [look] at look'
      cases look'
      simp at bare
  | @wrapped q content w tree look inner ih =>
    have plain : t.Plain q := ⟨_, look, Wrapper.isSynonym_around⟩
    cases tree' with
    | atom =>
      obtain ⟨-, look', bare⟩ := unfolds'.inv_atom plain
      rw [look] at look'
      cases look'
      simp at bare
    | wrapped =>
      obtain ⟨rfl, content', look', inner'⟩ := unfolds'.inv_wrapped plain
      rw [look] at look'
      obtain ⟨rfl, rfl⟩ := Wrapper.around_inj.mp (Except.ok.inj look')
      rw [ih inner']
  | synonym look _ ih => exact ih ((unfolds_synonym_iff look).mp unfolds')

/-- Where layers are made of earlier slots, a type without functions has a tree. -/
theorem Ordered.exists_unfolds (ordered : t.Ordered) (inside : q.id.index < t.size)
    (free : t.FunctionFree q) : ∃ tree, t.Unfolds q tree := by
  induction slot : q.id.index using Nat.strongRecOn generalizing q with
  | _ slot ih =>
    obtain ⟨shape, look⟩ := exists_shape inside
    have part (p : QualifiedType) (mem : p ∈ shape.components) (isConst : Bool) :
        ∃ tree, t.Unfolds ⟨p.id, isConst⟩ tree := by
      have earlier : p.id.index < q.id.index := ordered q.id shape look p mem
      exact ih p.id.index (by omega) (q := ⟨p.id, isConst⟩) (Nat.lt_trans earlier inside)
        (free.part look mem) rfl
    rcases shape.kinds with bare | ⟨w, content, rfl⟩ | ⟨name, target, rfl⟩ | ⟨ret, params, rfl⟩
    · exact ⟨_, .atom look bare⟩
    · obtain ⟨tree, inner⟩ := part content (by simp) content.isConst
      exact ⟨_, .wrapped look inner⟩
    · obtain ⟨tree, rest⟩ := part target List.mem_cons_self (q.isConst || target.isConst)
      exact ⟨tree, .synonym look rest⟩
    · exact absurd look (free q.id .refl ret params)

-- ============================================================ one interning

/-- A layer is looked up in its slot. -/
theorem shape_eq_ok_iff : t.shape id = .ok shape ↔ t.shapes[id.index]? = some shape := by
  constructor
  · exact eq_of_entry
  · intro holds
    unfold TypeTable.shape entry
    rw [holds]

/-- What is stored for a layer: around one type, that type with its synonyms followed, and
otherwise the layer as it is. -/
theorem normalize_cases {stored : TypeShape} (normal : t.normalize shape = .ok stored) :
    (∃ w q r, shape = Wrapper.around w q ∧ t.canonical q = .ok r ∧ stored = w.around r)
      ∨ (∀ w q, shape ≠ Wrapper.around w q) ∧ stored = shape := by
  rcases shape.kinds with bare | ⟨w, q, rfl⟩ | ⟨name, target, rfl⟩ | ⟨ret, params, rfl⟩
  · refine .inr ⟨?_, ?_⟩
    · rintro w q rfl
      simp at bare
    · cases shape <;> first | (cases normal; rfl) | cases bare
  · left
    have unfolded : (do return w.around (← t.canonical q) : Result TypeShape) = .ok stored := by
      cases w <;> exact normal
    obtain ⟨r, canonical, same⟩ := bind_eq_ok.mp unfolded
    cases same
    exact ⟨w, q, r, rfl, canonical, rfl⟩
  · cases normal
    exact .inr ⟨fun w q => by cases w <;> nofun, rfl⟩
  · cases normal
    exact .inr ⟨fun w q => by cases w <;> nofun, rfl⟩

/-- What a search finds holds the layer. -/
theorem find?_eq_some (found : t.find? shape = some id) : t.shape id = .ok shape :=
  shape_eq_ok_iff.mpr (TranslationUnit.lastBelow_eq_some found).2.1

/-- A search that finds nothing has looked at every slot. -/
theorem find?_eq_none (missing : t.find? shape = none) (slot : Nat) :
    t.shapes[slot]? ≠ some shape := by
  intro holds
  have inside := (Array.getElem?_eq_some_iff.mp holds).1
  obtain ⟨last, found⟩ := TranslationUnit.exists_lastBelow (t := t) inside holds
  rw [show t.lastBelow shape t.shapes.size = t.find? shape from rfl, missing] at found
  cases found

/-- All that interning can do: hand out a slot that holds the layer, or make one if none does. -/
theorem intern_cases (interned : t.intern shape = .ok (t', id)) :
    ∃ stored, t.normalize shape = .ok stored
      ∧ (t' = t ∧ t.shape id = .ok stored
        ∨ (∀ slot : Nat, t.shapes[slot]? ≠ some stored) ∧ t' = ⟨t.shapes.push stored⟩
          ∧ id = ⟨t.size⟩) := by
  obtain ⟨stored, normal, found⟩ := bind_eq_ok.mp interned
  refine ⟨stored, normal, ?_⟩
  cases known : t.find? stored with
  | some slot =>
    rw [known] at found
    cases found
    exact .inl ⟨rfl, find?_eq_some known⟩
  | none =>
    rw [known] at found
    cases found
    exact .inr ⟨find?_eq_none known, rfl, rfl⟩

/-- Interning a layer that is made of slots of the table answers. -/
theorem Ordered.intern_ends {π : Fault → Prop} (ordered : t.Ordered)
    (inside : ∀ q ∈ shape.components, q.id.index < t.size) :
    Ends π (t.intern shape) fun _ => True := by
  have normal : Ends π (t.normalize shape) fun _ => True := by
    rcases shape.kinds with bare | ⟨w, q, rfl⟩ | ⟨name, target, rfl⟩ | ⟨ret, params, rfl⟩
    · cases shape <;> first | exact .pure trivial | cases bare
    · have ends := ordered.canonical_ends (π := π) (inside q (by simp))
      cases w <;> exact .bind ends fun _ _ => .pure trivial
    · exact .pure trivial
    · exact .pure trivial
  refine .bind normal fun stored _ => ?_
  split
  · exact .pure trivial
  · exact .pure trivial

/-- A new slot leaves the others as they were. -/
theorem shape_push (stored : TypeShape) :
    (TypeTable.mk (t.shapes.push stored)).shape id =
      if id.index = t.size then .ok stored else t.shape id := by
  unfold TypeTable.shape entry TypeTable.size
  rw [Array.getElem?_push]
  by_cases last : id.index = t.shapes.size
  · rw [if_pos last, if_pos last]
  · rw [if_neg last, if_neg last]

/-- Only slots that are there hold layers. -/
theorem index_lt_of_shape (look : t.shape id = .ok shape) : id.index < t.size :=
  (Array.getElem?_eq_some_iff.mp (eq_of_entry look)).1

/-- A slot of the longer table is the last one, or was there before. -/
theorem shape_push_eq_ok_iff {stored : TypeShape} :
    (TypeTable.mk (t.shapes.push stored)).shape id = .ok shape ↔
      id.index = t.size ∧ shape = stored ∨ t.shape id = .ok shape := by
  rw [shape_push]
  by_cases last : id.index = t.size
  · rw [if_pos last]
    constructor
    · intro same
      exact .inl ⟨last, (Except.ok.inj same).symm⟩
    · rintro (⟨-, rfl⟩ | old)
      · rfl
      · exact absurd last (Nat.ne_of_lt (index_lt_of_shape old))
  · rw [if_neg last]
    exact ⟨.inr, fun either => either.resolve_left fun new => last new.1⟩

/-- A new last slot changes no other. -/
theorem within_push (stored : TypeShape) : t.Within ⟨t.shapes.push stored⟩ :=
  fun _ _ look => shape_push_eq_ok_iff.mpr (.inr look)

/-- A layer that is made of earlier slots may come last. -/
theorem Ordered.push (ordered : t.Ordered) {stored : TypeShape}
    (inside : ∀ q ∈ stored.components, q.id.index < t.size) :
    Ordered ⟨t.shapes.push stored⟩ := by
  intro id shape look q mem
  rcases shape_push_eq_ok_iff.mp look with ⟨last, rfl⟩ | old
  · rw [last]
    exact inside q mem
  · exact ordered id shape old q mem

-- ============================================================ tables grown by interning

/-- A table becomes another one by interning layers that are made of slots there are. -/
inductive GrowsTo (start : TypeTable) : TypeTable → Prop where
  | refl : GrowsTo start start
  | intern {t t' : TypeTable} {id : TypeId} (before : GrowsTo start t) (shape : TypeShape)
      (inside : ∀ q ∈ shape.components, q.id.index < t.size)
      (interned : t.intern shape = .ok (t', id)) : GrowsTo start t'

/-- No layer is held twice, layers are made of earlier slots, and what a layer is around is no
synonym. -/
structure Neat (t : TypeTable) : Prop where
  unique : ∀ id id' shape, t.shape id = .ok shape → t.shape id' = .ok shape → id = id'
  ordered : t.Ordered
  plain : ∀ id w content, t.shape id = .ok (Wrapper.around w content) →
    t.Plain content

/-- The empty table is neat. -/
theorem Neat.empty : Neat .empty := by
  have none (id : TypeId) (shape : TypeShape) : TypeTable.empty.shape id ≠ .ok shape := by
    intro look
    cases eq_of_entry look
  exact ⟨fun id _ shape look => absurd look (none id shape),
    fun id shape look => absurd look (none id shape),
    fun id _ _ look => absurd look (none id _)⟩

/-- What is stored is made of slots of the table, and what it is around is no synonym. -/
theorem Ordered.of_normalize (ordered : t.Ordered)
    (inside : ∀ q ∈ shape.components, q.id.index < t.size) {stored : TypeShape}
    (normal : t.normalize shape = .ok stored) :
    (∀ q ∈ stored.components, q.id.index < t.size)
      ∧ ∀ w content, stored = Wrapper.around w content →
        t.Plain content := by
  rcases normalize_cases normal with ⟨w, q, r, rfl, canonical, rfl⟩ | ⟨other, rfl⟩
  · have insideQ := inside q (by simp)
    have ends := ordered.canonical_ends (π := fun _ => False) insideQ
    rw [canonical] at ends
    obtain ⟨notAfter, plain⟩ := ends
    constructor
    · intro p mem
      rw [Wrapper.components_around, List.mem_singleton] at mem
      rw [mem]
      exact Nat.lt_of_le_of_lt notAfter insideQ
    · intro w' content same
      obtain ⟨rfl, rfl⟩ := Wrapper.around_inj.mp same
      exact plain
  · exact ⟨inside, fun w content same => absurd same (other w content)⟩

/-- A layer that no slot holds, made of earlier slots and around a plain one, keeps a table neat. -/
theorem Neat.push (neat : t.Neat) {stored : TypeShape}
    (fresh : ∀ slot : Nat, t.shapes[slot]? ≠ some stored)
    (inside : ∀ q ∈ stored.components, q.id.index < t.size)
    (plain : ∀ w content, stored = Wrapper.around w content →
      t.Plain content) :
    Neat ⟨t.shapes.push stored⟩ := by
  constructor
  · intro id id' shape look look'
    rcases shape_push_eq_ok_iff.mp look with ⟨last, rfl⟩ | old
    · rcases shape_push_eq_ok_iff.mp look' with ⟨last', -⟩ | old'
      · cases id
        cases id'
        simp_all
      · exact absurd (shape_eq_ok_iff.mp old') (fresh _)
    · rcases shape_push_eq_ok_iff.mp look' with ⟨-, rfl⟩ | old'
      · exact absurd (shape_eq_ok_iff.mp old) (fresh _)
      · exact neat.unique id id' shape old old'
  · exact neat.ordered.push inside
  · intro id w content look
    have found : t.Plain content := by
      rcases shape_push_eq_ok_iff.mp look with ⟨-, same⟩ | old
      · exact plain w content same.symm
      · exact neat.plain id w content old
    obtain ⟨inner, here, notSynonym⟩ := found
    exact ⟨inner, within_push stored _ _ here, notSynonym⟩

/-- No two slots of a neat table hold the same layer. -/
theorem Neat.nodup (neat : t.Neat) : t.shapes.toList.Nodup := by
  rw [List.nodup_iff_pairwise_ne, List.pairwise_iff_getElem]
  intro slot slot' inside inside' before same
  have look : t.shape ⟨slot⟩ = .ok t.shapes.toList[slot] := by
    rw [shape_eq_ok_iff, ← Array.getElem?_toList]
    exact List.getElem?_eq_getElem inside
  have look' : t.shape ⟨slot'⟩ = .ok t.shapes.toList[slot'] := by
    rw [shape_eq_ok_iff, ← Array.getElem?_toList]
    exact List.getElem?_eq_getElem inside'
  cases neat.unique ⟨slot⟩ ⟨slot'⟩ _ look (same ▸ look')
  omega

/-- One interning keeps a table neat. -/
theorem Neat.intern (neat : t.Neat) (inside : ∀ q ∈ shape.components, q.id.index < t.size)
    (interned : t.intern shape = .ok (t', id)) : t'.Neat := by
  obtain ⟨stored, normal, ⟨rfl, -⟩ | ⟨fresh, rfl, -⟩⟩ := intern_cases interned
  · exact neat
  · obtain ⟨insideStored, plain⟩ := neat.ordered.of_normalize inside normal
    exact neat.push fresh insideStored plain

/-- So a table that is grown from nothing is neat. -/
theorem GrowsTo.neat (grows : TypeTable.empty.GrowsTo t) : t.Neat := by
  induction grows with
  | refl => exact .empty
  | intern _ _ inside interned ih => exact ih.intern inside interned

-- ============================================================ the slot and the tree

/-- So a layer tells its slot. -/
private theorem Neat.eq_of_shape (neat : t.Neat) (isConst : r.isConst = r'.isConst)
    (look : t.shape r.id = .ok shape) (look' : t.shape r'.id = .ok shape) : r = r' := by
  have slots : r.id = r'.id := neat.unique r.id r'.id shape look look'
  cases r
  cases r'
  simp_all

/-- In a neat table a type that is no synonym is determined by its tree. -/
theorem Neat.eq_of_unfolds (neat : t.Neat) (plain : t.Plain r) (plain' : t.Plain r')
    (unfolds : t.Unfolds r tree) (unfolds' : t.Unfolds r' tree) : r = r' := by
  induction tree generalizing r r' with
  | atom isConst shape =>
    obtain ⟨ofR, look, -⟩ := unfolds.inv_atom plain
    obtain ⟨ofR', look', -⟩ := unfolds'.inv_atom plain'
    exact neat.eq_of_shape (ofR.trans ofR'.symm) look look'
  | wrapped isConst w inner ih =>
    obtain ⟨ofR, content, look, below⟩ := unfolds.inv_wrapped plain
    obtain ⟨ofR', content', look', below'⟩ := unfolds'.inv_wrapped plain'
    -- what the layers are around is no synonym on either side, so the level below decides
    obtain rfl : content = content' :=
      ih (neat.plain _ _ _ look) (neat.plain _ _ _ look') below below'
    exact neat.eq_of_shape (ofR.trans ofR'.symm) look look'

/-- In a table that is grown by interning no layer is held twice, and what a pointer, a reference or
an array is made of is never a synonym. The next interning answers. Every type without functions has
one tree, and two of them have the same tree if and only if they have the same canonical type. -/
theorem canonical_identifies (grows : TypeTable.empty.GrowsTo t) :
    t.shapes.toList.Nodup
    ∧ (∀ id w content, t.shape id = .ok (Wrapper.around w content) →
      t.isCanonical content = .ok true)
    ∧ (∀ shape : TypeShape, (∀ q ∈ shape.components, q.id.index < t.size) →
      ∃ t' id, t.intern shape = .ok (t', id))
    ∧ ∀ a b : QualifiedType, a.id.index < t.size → b.id.index < t.size →
      t.FunctionFree a → t.FunctionFree b →
      (∃ r, t.canonical a = .ok r) ∧ (∃! tree, t.Unfolds a tree)
      ∧ (t.canonical a = t.canonical b ↔ ∃ tree, t.Unfolds a tree ∧ t.Unfolds b tree) := by
  have neat := grows.neat
  refine ⟨neat.nodup, ?_, ?_, ?_⟩
  · intro id w content look
    exact (neat.plain id w content look).isCanonical
  · intro shape inside
    obtain ⟨⟨t', id⟩, interned, -⟩ :=
      (neat.ordered.intern_ends (π := fun _ => False) inside).answer
    exact ⟨t', id, interned⟩
  · intro a b insideA insideB freeA freeB
    obtain ⟨r, ofA, -, plainA⟩ := (neat.ordered.canonical_ends insideA).answer
    obtain ⟨r', ofB, -, plainB⟩ := (neat.ordered.canonical_ends insideB).answer
    obtain ⟨tree, unfolds⟩ := neat.ordered.exists_unfolds insideA freeA
    refine ⟨⟨r, ofA⟩, ⟨tree, unfolds, fun _ other => other.unique unfolds⟩, ?_, ?_⟩
    · intro same
      have ofB' : t.canonical b = .ok r := same ▸ ofA
      exact ⟨tree, unfolds, (unfolds_resolve_iff ofB').mpr ((unfolds_resolve_iff ofA).mp unfolds)⟩
    · rintro ⟨tree, unfoldsA, unfoldsB⟩
      rw [ofA, ofB, neat.eq_of_unfolds plainA plainB ((unfolds_resolve_iff ofA).mp unfoldsA)
        ((unfolds_resolve_iff ofB).mp unfoldsB)]

/-- Sizes, constant ones under another name, and views: pointers to constant sizes. The array was
interned as one of views, and holds the pointers that views are. -/
def fixedViews : TypeTable :=
  ⟨#[.builtin .int, .synonym "Size" ⟨⟨0⟩, false⟩, .synonym "Fixed" ⟨⟨1⟩, true⟩,
    .pointer ⟨⟨0⟩, true⟩, .synonym "View" ⟨⟨3⟩, false⟩, .array ⟨⟨3⟩, false⟩ (some 2)]⟩

private theorem empty_growsTo_fixedViews : TypeTable.empty.GrowsTo fixedViews := by
  have int : TypeTable.empty.GrowsTo ⟨#[.builtin .int]⟩ :=
    .intern .refl (.builtin .int) nofun rfl
  have size := GrowsTo.intern int (.synonym "Size" ⟨⟨0⟩, false⟩) (by decide) rfl
  have fixed := GrowsTo.intern size (.synonym "Fixed" ⟨⟨1⟩, true⟩) (by decide) rfl
  have pointer := GrowsTo.intern fixed (.pointer ⟨⟨2⟩, false⟩) (by decide) rfl
  have view := GrowsTo.intern pointer (.synonym "View" ⟨⟨3⟩, false⟩) (by decide) rfl
  exact GrowsTo.intern view (.array ⟨⟨4⟩, false⟩ (some 2)) (by decide) rfl

/-- A view is the pointer that it stands for, and a fixed size is another type than a size. -/
theorem fixedViews_identified :
    TypeTable.empty.GrowsTo fixedViews ∧ (∀ q, fixedViews.FunctionFree q)
    ∧ fixedViews.shapes.toList.Nodup
    ∧ (fixedViews.canonical ⟨⟨4⟩, false⟩ = fixedViews.canonical ⟨⟨3⟩, false⟩ ↔
      ∃ tree, fixedViews.Unfolds ⟨⟨4⟩, false⟩ tree ∧ fixedViews.Unfolds ⟨⟨3⟩, false⟩ tree)
    ∧ (fixedViews.canonical ⟨⟨2⟩, false⟩ = fixedViews.canonical ⟨⟨1⟩, false⟩ ↔
      ∃ tree, fixedViews.Unfolds ⟨⟨2⟩, false⟩ tree ∧ fixedViews.Unfolds ⟨⟨1⟩, false⟩ tree) := by
  have free : ∀ q, fixedViews.FunctionFree q := by
    refine functionFree_of_none fun shape mem => ?_
    simp only [fixedViews, List.mem_toArray, List.mem_cons, List.not_mem_nil, or_false] at mem
    rcases mem with rfl | rfl | rfl | rfl | rfl | rfl <;> nofun
  obtain ⟨nodup, -, -, identified⟩ := canonical_identifies empty_growsTo_fixedViews
  refine ⟨empty_growsTo_fixedViews, free, nodup, ?_, ?_⟩
  · exact (identified _ _ (by decide) (by decide) (free _) (free _)).2.2
  · exact (identified _ _ (by decide) (by decide) (free _) (free _)).2.2

end TypeTable

end SafeDialect
