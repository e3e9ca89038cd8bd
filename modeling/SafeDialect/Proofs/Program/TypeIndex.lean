/-
Interning with an index that is carried along.

`TypeTable.intern` looks for a layer among all slots. An `IndexedTable` has an index from layers to
slots beside the slots: loading a list of layers enters each of them in turn, an interning asks the
index alone, and enters a layer only when it makes a slot for it. Neither looks at the slots again,
so a wrong entry would never be mended.

The invariant `InStep` says that the index gives what a search would find, the last slot of a layer.
One lemma carries it: a layer that goes into a new last slot and into the index keeps the two in
step, whether or not another slot holds it. Loading is a sequence of such steps, where a layer may
come twice, and an interning is one of them or none. So the two tables hand out the same slots, and
what holds of one kind of table holds of the other, also where loaded slots hold one layer twice or
are made of synonyms.

Slots never change, so a table lies within every table that it grows to. What synonyms end at is
read off slots alone, and stays.

Slots are natural numbers. What is handed out is no further than the next slot, so it fits 32 bits
as long as the table has fewer than 2 ^ 32 slots.
-/
import Mathlib.Data.List.Induction
import SafeDialect.Proofs.Program.Interning

namespace SafeDialect

open Relation

deriving instance Hashable for TypeId, RecordId, QualifiedType, Builtin, TypeShape

namespace TypeTable

variable {t t' t'' : TypeTable} {shape : TypeShape} {q r : QualifiedType}

-- ============================================================ where synonyms end

/-- The synonyms of a type end at a type that is none, with each `const` on the way kept. -/
inductive EndsAt (t : TypeTable) : QualifiedType → QualifiedType → Prop where
  | here {q : QualifiedType} (plain : t.Plain q) : EndsAt t q q
  | synonym {q target r : QualifiedType} {name : String}
      (look : t.shape q.id = .ok (.synonym name target))
      (rest : EndsAt t ⟨target.id, q.isConst || target.isConst⟩ r) : EndsAt t q r

/-- A walk that ends has gone from synonym to synonym. -/
private theorem endsAt_of_resolve {steps : Nat} (ends : t.resolve steps q = .ok r) :
    t.EndsAt q r := by
  induction steps generalizing q with
  | zero => cases ends
  | succ steps ih =>
    -- the last case below only knows that no synonym matched, so this comes from the whole walk
    have plain : t.Plain r := TranslationUnit.plain_of_resolve ends
    unfold resolve at ends
    split at ends
    · cases ends
    · next look => exact .synonym look (ih ends)
    · cases ends
      exact .here plain

-- ============================================================ tables within tables

/-- Tables within tables. -/
theorem Within.trans (first : t.Within t') (second : t'.Within t'') : t.Within t'' :=
  fun id shape look => second id shape (first id shape look)

private theorem Within.size_le (within : t.Within t') : t.size ≤ t'.size := by
  by_contra shorter
  -- the slot behind the second table would be one of the first, and so of the second
  have inside : (TypeId.mk t'.size).index < t.size := Nat.lt_of_not_le shorter
  obtain ⟨shape, look⟩ := exists_shape inside
  exact Nat.lt_irrefl _ (index_lt_of_shape (within _ _ look))

/-- What a slot holds, and what its synonyms end at, is the same in every table around. -/
theorem Ordered.kept_within (ordered : t.Ordered) (within : t.Within t')
    (inside : q.id.index < t.size) :
    t'.shape q.id = t.shape q.id
      ∧ ∃ r, t.EndsAt q r ∧ t.canonical q = .ok r ∧ t'.canonical q = .ok r := by
  obtain ⟨shape, look⟩ := exists_shape inside
  obtain ⟨r, ends, -⟩ := (ordered.canonical_ends inside).answer
  have ends' : t'.canonical q = .ok r :=
    within.resolve (Nat.succ_le_succ within.size_le) ends
  rw [look]
  exact ⟨within _ _ look, r, endsAt_of_resolve ends, ends, ends'⟩

/-- Whether layers are made of earlier slots can be read off the slots. -/
theorem ordered_iff :
    t.Ordered ↔ ∀ slot : Fin t.shapes.size,
      ∀ q ∈ t.shapes[slot].components, q.id.index < slot := by
  constructor
  · intro ordered slot
    exact ordered ⟨slot⟩ _ (shape_eq_ok_iff.mpr (Array.getElem?_eq_getElem slot.isLt))
  · intro checked id shape look
    obtain ⟨inside, holds⟩ := Array.getElem?_eq_some_iff.mp (shape_eq_ok_iff.mp look)
    rw [← holds]
    exact checked ⟨id.index, inside⟩

instance : Decidable t.Ordered := decidable_of_iff _ ordered_iff.symm

-- ============================================================ searching for a layer

/-- What is searched for below a bound depends on the slots below it. -/
theorem lastBelow_congr {bound : Nat}
    (same : ∀ slot < bound, t.shapes[slot]? = t'.shapes[slot]?) :
    t.lastBelow shape bound = t'.lastBelow shape bound := by
  induction bound with
  | zero => rfl
  | succ n ih =>
    unfold lastBelow
    rw [same n (Nat.lt_succ_self n), ih fun slot below => same slot (Nat.lt_succ_of_lt below)]

/-- A search finds the new slot for its layer, and for another one what it found before. -/
theorem find?_push (stored : TypeShape) :
    (TypeTable.mk (t.shapes.push stored)).find? shape =
      if stored = shape then some ⟨t.size⟩ else t.find? shape := by
  unfold find? size
  rw [Array.size_push, lastBelow, Array.getElem?_push_size]
  simp only [Option.some.injEq]
  congr 1
  refine lastBelow_congr fun slot below => ?_
  rw [Array.getElem?_push, if_neg (Nat.ne_of_lt below)]

private theorem isSome_find?_iff : (t.find? shape).isSome ↔ shape ∈ t.shapes := by
  rw [Array.mem_iff_getElem?]
  constructor
  · intro known
    obtain ⟨id, found⟩ := Option.isSome_iff_exists.mp known
    exact ⟨id.index, shape_eq_ok_iff.mp (find?_eq_some found)⟩
  · rintro ⟨slot, holds⟩
    by_contra unknown
    exact find?_eq_none (Option.not_isSome_iff_eq_none.mp unknown) slot holds

/-- The form in which a layer is stored. What a pointer, a reference or an array is around has its
synonyms followed, and every other layer is stored as it is. -/
inductive StoredAs (t : TypeTable) : TypeShape → TypeShape → Prop where
  | around (w : Wrapper) {q r : QualifiedType} (ends : t.EndsAt q r) :
      StoredAs t (w.around q) (w.around r)
  | asItIs {shape : TypeShape} (other : ∀ w q, shape ≠ Wrapper.around w q) :
      StoredAs t shape shape

private theorem storedAs_of_normalize {stored : TypeShape}
    (normal : t.normalize shape = .ok stored) : t.StoredAs shape stored := by
  rcases normalize_cases normal with ⟨w, q, r, rfl, ends, rfl⟩ | ⟨other, rfl⟩
  · exact .around w (endsAt_of_resolve ends)
  · exact .asItIs other

end TypeTable

-- ============================================================ tables with an index

/-- A type table with the slot to hand out for each layer. -/
structure IndexedTable extends TypeTable where
  index : Std.HashMap TypeShape TypeId

namespace IndexedTable

variable {x x' : IndexedTable} {shape stored : TypeShape} {shapes : List TypeShape} {id : TypeId}

/-- The table of a list of layers. Each is entered into the index in turn, and a later entry for the
same layer replaces an earlier one. The slots fit 32 bits if there are at most 2 ^ 32 layers. -/
def load (shapes : List TypeShape) : IndexedTable where
  shapes := shapes.toArray
  index := shapes.zipIdx.foldl (fun index (shape, slot) => index.insert shape ⟨slot⟩) ∅

/-- The table with a layer in a new last slot and in the index. -/
def push (x : IndexedTable) (stored : TypeShape) : IndexedTable where
  shapes := x.shapes.push stored
  index := x.index.insert stored ⟨x.size⟩

/-- The slot that the index has for a layer, in a table extended by the layer if there is none. The
slot fits 32 bits as long as there are fewer than 2 ^ 32 slots before it. -/
def intern (x : IndexedTable) (shape : TypeShape) : Result (IndexedTable × TypeId) := do
  let stored ← x.normalize shape
  match x.index[stored]? with
  | some id => return (x, id)
  | none => return (x.push stored, ⟨x.size⟩)

/-- One table becomes another by interning a layer that is made of slots there are. -/
def Interns (x x' : IndexedTable) : Prop :=
  ∃ shape id, (∀ q ∈ shape.components, q.id.index < x.size) ∧ x.intern shape = .ok (x', id)

/-- All that interning can do: hand out the slot that the index has, or make one if it has none. -/
theorem intern_cases (interned : x.intern shape = .ok (x', id)) :
    ∃ stored, x.normalize shape = .ok stored
      ∧ (x.index[stored]? = some id ∧ x' = x
        ∨ x.index[stored]? = none ∧ x' = x.push stored ∧ id = ⟨x.size⟩) := by
  obtain ⟨stored, normal, found⟩ := bind_eq_ok.mp interned
  refine ⟨stored, normal, ?_⟩
  cases known : x.index[stored]? with
  | some slot =>
    rw [known] at found
    cases found
    exact .inl ⟨rfl, rfl⟩
  | none =>
    rw [known] at found
    cases found
    exact .inr ⟨rfl, rfl, rfl⟩

private theorem load_concat (shapes : List TypeShape) (last : TypeShape) :
    load (shapes ++ [last]) = (load shapes).push last := by
  unfold load push TypeTable.size
  simp [List.zipIdx_append]

-- ============================================================ the index in step

/-- The index gives what a search of the slots would find. -/
def InStep (x : IndexedTable) : Prop := ∀ shape, x.index[shape]? = x.find? shape

/-- A new slot and its entry keep the index in step, whether or not the layer was there. -/
theorem InStep.push (inStep : x.InStep) (stored : TypeShape) : (x.push stored).InStep := by
  intro shape
  have searched : (x.push stored).find? shape = _ := TypeTable.find?_push stored
  rw [searched, IndexedTable.push, Std.HashMap.getElem?_insert, inStep shape]
  simp only [beq_iff_eq]

/-- A list of layers is loaded with its index in step, by induction on the last of them. -/
theorem inStep_load (shapes : List TypeShape) : (load shapes).InStep := by
  induction shapes using List.reverseRecOn with
  | nil =>
    intro shape
    exact Std.HashMap.getElem?_empty
  | append_singleton shapes last ih =>
    rw [load_concat]
    exact ih.push last

/-- An interning keeps the index in step, be the layer new or not. -/
theorem InStep.intern (inStep : x.InStep) (interned : x.intern shape = .ok (x', id)) :
    x'.InStep := by
  obtain ⟨stored, -, ⟨-, rfl⟩ | ⟨-, rfl, -⟩⟩ := intern_cases interned
  · exact inStep
  · exact inStep.push stored

/-- The index knows the layers that some slot holds. -/
private theorem InStep.mem_index_iff (inStep : x.InStep) : shape ∈ x.index ↔ shape ∈ x.shapes := by
  rw [← Std.HashMap.isSome_getElem?_iff_mem, inStep shape]
  exact TypeTable.isSome_find?_iff

private theorem InStep.shape_of_index (inStep : x.InStep) (known : x.index[shape]? = some id) :
    x.shape id = .ok shape :=
  TypeTable.find?_eq_some ((inStep shape).symm.trans known)

/-- Asking an index that is in step and searching the slots is the same. -/
theorem InStep.intern_eq (inStep : x.InStep) (shape : TypeShape) :
    x.toTypeTable.intern shape = (x.intern shape).map fun (x', id) => (x'.toTypeTable, id) := by
  unfold IndexedTable.intern TypeTable.intern
  cases x.normalize shape with
  | error fault => rfl
  | ok stored =>
    rw [ok_bind, ok_bind, inStep stored]
    cases x.find? stored with
    | some id => rfl
    | none => rfl

/-- So an interning that is searched for is one that the index answers. -/
theorem InStep.exists_intern (inStep : x.InStep) {t : TypeTable}
    (interned : x.toTypeTable.intern shape = .ok (t, id)) :
    ∃ x', x.intern shape = .ok (x', id) ∧ x'.toTypeTable = t := by
  rw [inStep.intern_eq] at interned
  cases asked : x.intern shape with
  | error fault =>
    rw [asked] at interned
    cases interned
  | ok answer =>
    rw [asked] at interned
    cases interned
    exact ⟨answer.1, rfl, rfl⟩

/-- What is handed out holds the layer as it is stored, and a slot is made if none held it. -/
theorem InStep.of_intern (inStep : x.InStep) (interned : x.intern shape = .ok (x', id)) :
    ∃ stored, x.StoredAs shape stored ∧ x'.shape id = .ok stored
      ∧ (stored ∈ x.shapes → x' = x)
      ∧ (stored ∉ x.shapes → x'.shapes = x.shapes.push stored) := by
  obtain ⟨stored, normal, ⟨known, rfl⟩ | ⟨unknown, rfl, rfl⟩⟩ := intern_cases interned
  · refine ⟨stored, TypeTable.storedAs_of_normalize normal, inStep.shape_of_index known,
      fun _ => rfl, fun absent => ?_⟩
    exact absurd (Array.mem_of_getElem? (eq_of_entry (inStep.shape_of_index known))) absent
  · refine ⟨stored, TypeTable.storedAs_of_normalize normal,
      TypeTable.shape_push_eq_ok_iff.mpr (.inl ⟨rfl, rfl⟩), fun present => ?_, fun _ => rfl⟩
    have entered := inStep.mem_index_iff.mpr present
    rw [Std.HashMap.mem_iff_isSome_getElem?, unknown] at entered
    cases entered

/-- What is handed out is a slot there is, or the next one. -/
theorem InStep.index_le_size (inStep : x.InStep) (interned : x.intern shape = .ok (x', id)) :
    id.index ≤ x.size := by
  obtain ⟨stored, -, ⟨known, -⟩ | ⟨-, -, rfl⟩⟩ := intern_cases interned
  · exact Nat.le_of_lt (TypeTable.index_lt_of_shape (inStep.shape_of_index known))
  · exact Nat.le_refl _

-- ============================================================ sequences of internings

/-- An interning changes no slot. -/
theorem Interns.within (interns : Interns x x') : x.Within x'.toTypeTable := by
  obtain ⟨shape, id, -, interned⟩ := interns
  obtain ⟨stored, -, ⟨-, rfl⟩ | ⟨-, rfl, -⟩⟩ := intern_cases interned
  · exact .refl _
  · exact TypeTable.within_push stored

/-- A layer that is interned is made of slots there are, so the table stays ordered. -/
theorem Interns.ordered (interns : Interns x x') (ordered : x.Ordered) : x'.Ordered := by
  obtain ⟨shape, id, inside, interned⟩ := interns
  obtain ⟨stored, normal, ⟨-, rfl⟩ | ⟨-, rfl, -⟩⟩ := intern_cases interned
  · exact ordered
  · exact ordered.push (ordered.of_normalize inside normal).1

private theorem within_of_grown (grows : ReflTransGen Interns x x') : x.Within x'.toTypeTable := by
  induction grows with
  | refl => exact .refl _
  | tail _ interns ih => exact ih.trans interns.within

private theorem ordered_of_grown (ordered : x.Ordered) (grows : ReflTransGen Interns x x') :
    x'.Ordered := by
  induction grows with
  | refl => exact ordered
  | tail _ interns ih => exact interns.ordered ih

/-- The run: an index that is loaded in step stays so through any number of internings. -/
private theorem inStep_of_grown (grows : ReflTransGen Interns (load shapes) x) : x.InStep := by
  induction grows with
  | refl => exact inStep_load shapes
  | tail _ interns ih =>
    obtain ⟨shape, id, -, interned⟩ := interns
    exact ih.intern interned

/-- Every table that a loaded one grows to by searching is one that it grows to with its index. -/
theorem exists_grown {t : TypeTable} (grows : (load shapes).GrowsTo t) :
    ∃ x, ReflTransGen Interns (load shapes) x ∧ x.toTypeTable = t := by
  induction grows with
  | refl => exact ⟨load shapes, .refl, rfl⟩
  | intern _ shape inside interned ih =>
    obtain ⟨x, grown, rfl⟩ := ih
    obtain ⟨x', asked, same⟩ := (inStep_of_grown grown).exists_intern interned
    exact ⟨x', grown.tail ⟨shape, _, inside, asked⟩, same⟩

/-- A table is loaded from layers that are made of earlier slots, and then layers that are made of
slots there are get interned, in any number. The index has the layers that are held and no others,
each with a slot that holds it: the one that a search finds, and the one that the index has when the
table is written out and loaded again. The next interning answers, with the table and the slot that
a search gives. The slot holds the layer as it is stored, and it is a new one just if no slot held
that. It is no further than the next slot, and so has an id of 32 bits where fewer than 2 ^ 32 slots
are taken. And what a slot holds, and what its synonyms end at, is never changed by interning more.
-/
theorem index_stays_in_step (ordered : (load shapes).Ordered)
    (grows : ReflTransGen Interns (load shapes) x) :
    ((∀ shape, shape ∈ x.index ↔ shape ∈ x.shapes)
      ∧ (∀ shape id, x.index[shape]? = some id → x.shape id = .ok shape)
      ∧ ∀ shape : TypeShape, x.index[shape]? = x.find? shape
        ∧ x.index[shape]? = (load x.shapes.toList).index[shape]?)
    ∧ (∀ shape : TypeShape, (∀ q ∈ shape.components, q.id.index < x.size) →
      ∃ x' id stored, x.intern shape = .ok (x', id)
        ∧ x.toTypeTable.intern shape = .ok (x'.toTypeTable, id)
        ∧ x.StoredAs shape stored ∧ x'.shape id = .ok stored
        ∧ (stored ∈ x.shapes → x' = x)
        ∧ (stored ∉ x.shapes → x'.shapes = x.shapes.push stored)
        ∧ (x.size < UInt32.size → id.index < UInt32.size))
    ∧ ∀ x', ReflTransGen Interns x x' → ∀ q : QualifiedType, q.id.index < x.size →
      x'.shape q.id = x.shape q.id
        ∧ ∃ r, x.EndsAt q r ∧ x.canonical q = .ok r ∧ x'.canonical q = .ok r := by
  have inStep := inStep_of_grown grows
  have orderedNow := ordered_of_grown ordered grows
  refine ⟨⟨fun _ => inStep.mem_index_iff, fun _ _ => inStep.shape_of_index, fun shape => ?_⟩,
    fun shape inside => ?_, fun x' later q inside => ?_⟩
  · -- the table that is loaded again has the same slots, and an index in step with them
    have reloaded : (load x.shapes.toList).index[shape]? = x.find? shape := inStep_load _ shape
    exact ⟨inStep shape, (inStep shape).trans reloaded.symm⟩
  · obtain ⟨⟨t, id⟩, searched, -⟩ :=
      (orderedNow.intern_ends (π := fun _ => False) inside).answer
    obtain ⟨x', asked, rfl⟩ := inStep.exists_intern searched
    obtain ⟨stored, storedAs, holds, old, new⟩ := inStep.of_intern asked
    exact ⟨x', id, stored, asked, searched, storedAs, holds, old, new,
      Nat.lt_of_le_of_lt (inStep.index_le_size asked)⟩
  · exact orderedNow.kept_within (within_of_grown later) inside

/-- Layers as they may come from outside: one of them in two slots, and a pointer to a synonym. -/
def counters : List TypeShape :=
  [.builtin .int, .synonym "Size" ⟨⟨0⟩, false⟩, .builtin .int, .pointer ⟨⟨1⟩, false⟩,
    .synonym "Count" ⟨⟨1⟩, true⟩]

/-- After pointers to counts were interned: what they point to is an integer, and constant. -/
def countersGrown : TypeTable := ⟨(load counters).shapes.push (.pointer ⟨⟨0⟩, true⟩)⟩

private theorem counters_growsTo : (load counters).GrowsTo countersGrown := by
  have pointer : (load counters).GrowsTo countersGrown :=
    .intern .refl (.pointer ⟨⟨4⟩, false⟩) (by decide) rfl
  -- integers are there, and their last slot is handed out
  have known : countersGrown.intern (.builtin .int) = .ok (countersGrown, ⟨2⟩) := rfl
  exact .intern pointer (.builtin .int) nofun known

/-- Two slots of the counters hold one layer and one is a pointer to a synonym. After two internings
the index still knows what is held, the next interning agrees with a search, and old slots are what
they were. -/
theorem counters_index_stays_in_step :
    (load counters).Ordered
    ∧ ∃ x, ReflTransGen Interns (load counters) x ∧ x.toTypeTable = countersGrown
      ∧ (∀ shape, shape ∈ x.index ↔ shape ∈ x.shapes)
      ∧ (∃ x' id, x.intern (.pointer ⟨⟨1⟩, false⟩) = .ok (x', id)
        ∧ countersGrown.intern (.pointer ⟨⟨1⟩, false⟩) = .ok (x'.toTypeTable, id))
      ∧ x.shape ⟨3⟩ = (load counters).shape ⟨3⟩
      ∧ ∃ r, (load counters).canonical ⟨⟨4⟩, false⟩ = .ok r
        ∧ x.canonical ⟨⟨4⟩, false⟩ = .ok r := by
  have ordered : (load counters).Ordered := by decide
  obtain ⟨x, grows, same⟩ := exists_grown counters_growsTo
  obtain ⟨⟨held, -⟩, next, -⟩ := index_stays_in_step ordered grows
  obtain ⟨-, -, kept⟩ := index_stays_in_step ordered .refl
  have inside : ∀ q ∈ (TypeShape.pointer ⟨⟨1⟩, false⟩).components, q.id.index < x.size := by
    rw [same]
    decide
  obtain ⟨x', id, -, asked, searched, -⟩ := next _ inside
  obtain ⟨-, r, -, before, after⟩ := kept x grows ⟨⟨4⟩, false⟩ (by decide)
  exact ⟨ordered, x, grows, same, held, ⟨x', id, asked, same ▸ searched⟩,
    (kept x grows ⟨⟨3⟩, false⟩ (by decide)).1, r, before, after⟩

end IndexedTable

end SafeDialect
