/-
Units in which nothing contains itself.

Four links of a unit may run in circles although it is consistent: from a type to its parts,
template arguments among them; from a record to its bases; from a naked struct to those among its
members; and from a statement to the one around it. Where a link does not, its ends have a rank that
falls along it and stays below the size of the table. Such ranks bound every walk along the link.
-/
import Mathlib.Data.Finset.Card
import Mathlib.Logic.Relation
import SafeDialect.Proofs.Program.Lookup

namespace SafeDialect

open Relation

-- ============================================================ ranks

/-- A relation into finitely many indices, in which nothing is related to itself along a chain, has
a rank that falls along it. -/
theorem exists_rank {α : Type} {R : α → α → Prop} {index : α → Nat} (size : Nat)
    (injective : Function.Injective index) (bounded : ∀ a b, R a b → index b < size)
    (acyclic : ∀ a, ¬ TransGen R a a) :
    ∃ rank : α → Nat, (∀ a b, R a b → rank b < rank a)
      ∧ ∀ a, index a < size → rank a < size := by
  classical
  -- the rank counts the indices that a chain leads to
  let below (a : α) : Finset Nat :=
    (Finset.range size).filter fun n => ∃ b, index b = n ∧ TransGen R a b
  have mem_below {a b : α} : index b ∈ below a ↔ index b < size ∧ TransGen R a b := by
    simp only [below, Finset.mem_filter, Finset.mem_range]
    refine and_congr_right fun _ => ⟨?_, fun chain => ⟨b, rfl, chain⟩⟩
    rintro ⟨b', same, chain⟩
    rwa [injective same] at chain
  refine ⟨fun a => (below a).card, fun a b step => ?_, fun a inside => ?_⟩
  -- what `b` leads to `a` leads to as well, and `a` leads to `b`, which does not lead to itself
  · refine Finset.card_lt_card (Finset.ssubset_iff_of_subset ?_ |>.mpr ⟨index b, ?_, ?_⟩)
    · intro n mem
      obtain ⟨inRange, c, rfl, chain⟩ := Finset.mem_filter.mp mem
      exact mem_below.mpr ⟨Finset.mem_range.mp inRange, .head step chain⟩
    · exact mem_below.mpr ⟨bounded a b step, .single step⟩
    · exact fun mem => acyclic b (mem_below.mp mem).2
  · have smaller : below a ⊂ Finset.range size := by
      refine (Finset.ssubset_iff_of_subset (Finset.filter_subset _ _)).mpr
        ⟨index a, Finset.mem_range.mpr inside, fun mem => acyclic a (mem_below.mp mem).2⟩
    simpa using Finset.card_lt_card smaller

/-- Nothing is related to itself along a chain if something falls along the relation. -/
theorem not_transGen_self {α : Type} {R : α → α → Prop} (rank : α → Nat)
    (falls : ∀ a b, R a b → rank b < rank a) (a : α) : ¬ TransGen R a a := by
  have lower {b : α} (chain : TransGen R a b) : rank b < rank a := by
    induction chain with
    | single step => exact falls _ _ step
    | tail _ step ih => exact Nat.lt_trans (falls _ _ step) ih
  exact fun chain => Nat.lt_irrefl _ (lower chain)

namespace TranslationUnit

-- ============================================================ the links

/-- A type has a part: a component of its layer, or a template argument of its record. -/
inductive Part (u : TranslationUnit) : TypeId → TypeId → Prop where
  | component {whole : TypeId} {shape : TypeShape} {part : QualifiedType} :
      u.types.shape whole = .ok shape → part ∈ shape.components → Part u whole part.id
  | argument {whole : TypeId} {id : RecordId} {r : RecordDecl} {arg : QualifiedType} :
      u.types.shape whole = .ok (.record id) → u.record id = .ok r → .type arg ∈ r.templateArgs →
      Part u whole arg.id

/-- A record has a base. -/
def Derives (u : TranslationUnit) (derived parent : RecordId) : Prop :=
  ∃ r base, u.record derived = .ok r ∧ base ∈ r.bases
    ∧ u.types.canonicalShape base.type = .ok (.record parent)

/-- The record that holds the definition: the record itself, or its template. -/
def Defines (u : TranslationUnit) (id defined : RecordId) : Prop :=
  ∃ r, u.record id = .ok r ∧ ((r.isDefined ∧ defined = id)
    ∨ (¬ r.isDefined ∧ r.pattern = some defined ∧ ∃ p, u.record defined = .ok p ∧ p.isDefined))

/-- A record has a member that is a naked struct, held by value. -/
def NakedMember (u : TranslationUnit) (outer inner : RecordId) : Prop :=
  ∃ r field id naked, u.record outer = .ok r ∧ field ∈ r.fields
    ∧ u.types.canonicalShape field.type = .ok (.record id) ∧ u.Defines id inner
    ∧ u.record inner = .ok naked ∧ naked.has .nakedStruct

/-- A statement stands directly inside another one. -/
def Within (u : TranslationUnit) (inner outer : StmtId) : Prop :=
  u.parentStmt inner = .ok (some outer)

/-- No type contains itself through template arguments. -/
def TypesFounded (u : TranslationUnit) : Prop := ∀ t, ¬ TransGen u.Part t t

/-- No naked struct contains itself through its members. -/
def NakedFounded (u : TranslationUnit) : Prop := ∀ r, ¬ TransGen u.NakedMember r r

/-- No record is its own base, however far up. -/
def BasesFounded (u : TranslationUnit) : Prop := ∀ r, ¬ TransGen u.Derives r r

/-- No statement stands inside itself. -/
def ParentsFounded (u : TranslationUnit) : Prop := ∀ s, ¬ TransGen u.Within s s

/-- Nothing in the unit contains itself. -/
structure Founded (u : TranslationUnit) : Prop where
  types : u.TypesFounded
  naked : u.NakedFounded
  bases : u.BasesFounded
  parents : u.ParentsFounded

-- ============================================================ their ranks

variable {u : TranslationUnit}

/-- A rank of types that falls from a type to its parts. -/
structure Ranked (u : TranslationUnit) (typeRank : TypeId → Nat) : Prop where
  part : ∀ whole part, u.Part whole part → typeRank part < typeRank whole
  lt_size : ∀ t : TypeId, u.Holds .types t.index → typeRank t < u.types.size

/-- A rank of records that falls from a record to the naked structs among its members. -/
structure NakedRanked (u : TranslationUnit) (nakedRank : RecordId → Nat) : Prop where
  member : ∀ outer inner, u.NakedMember outer inner → nakedRank inner < nakedRank outer
  lt_size : ∀ r : RecordId, u.Holds .records r.index → nakedRank r < u.records.size

/-- A rank of statements that falls from a statement to the one around it. -/
structure StmtsRanked (u : TranslationUnit) (stmtRank : StmtId → Nat) : Prop where
  parent : ∀ inner outer, u.Within inner outer → stmtRank outer < stmtRank inner
  lt_size : ∀ s : StmtId, u.Holds .statements s.index → stmtRank s < u.statements.size

/-- A rank of records that falls from a record to its bases. -/
structure BasesRanked (u : TranslationUnit) (baseRank : RecordId → Nat) : Prop where
  base : ∀ derived parent, u.Derives derived parent → baseRank parent < baseRank derived
  lt_size : ∀ r : RecordId, u.Holds .records r.index → baseRank r < u.records.size

/-- A type is its slot. -/
theorem TypeId.index_injective : Function.Injective TypeId.index := by
  rintro ⟨a⟩ ⟨b⟩ rfl
  rfl

theorem RecordId.index_injective : Function.Injective RecordId.index := by
  rintro ⟨a⟩ ⟨b⟩ rfl
  rfl

theorem StmtId.index_injective : Function.Injective StmtId.index := by
  rintro ⟨a⟩ ⟨b⟩ rfl
  rfl

/-- What is found in a table has a slot there. -/
theorem holds_of_entry {α : Type} {table : Table} {entries : Array α} {index : Nat} {a : α}
    (found : entry table entries index = .ok a) : index < entries.size := by
  have known := eq_of_entry found
  exact (Array.getElem?_eq_some_iff.mp known).1

/-- A record of a consistent unit fits it. -/
theorem Consistent.fits_of_record (c : u.Consistent) {id : RecordId} {r : RecordDecl}
    (look : u.record id = .ok r) : r.Fits u := by
  have fits := c.record_ends (π := fun _ => False) (holds_of_entry look)
  rwa [look] at fits

/-- A part of a type is in the unit. -/
theorem Consistent.holds_of_part (c : u.Consistent) {whole part : TypeId}
    (h : u.Part whole part) : u.Holds .types part.index := by
  cases h with
  | component look mem =>
    have fits := c.shape_ends (π := fun _ => False) (holds_of_entry look)
    rw [look] at fits
    exact (fits.components _ mem).1
  | argument _ found mem => exact (c.fits_of_record found).args _ mem

/-- Where types are well founded, a rank can be given to each: that of a part is lower. -/
theorem Consistent.exists_ranked (c : u.Consistent) (founded : u.TypesFounded) :
    ∃ typeRank, u.Ranked typeRank := by
  obtain ⟨typeRank, part, lt_size⟩ := exists_rank u.types.size TypeId.index_injective
    (fun _ _ h => c.holds_of_part h) founded
  exact ⟨typeRank, part, lt_size⟩

/-- The same for naked structs in each other. -/
theorem exists_nakedRanked (founded : u.NakedFounded) : ∃ nakedRank, u.NakedRanked nakedRank := by
  obtain ⟨nakedRank, member, lt_size⟩ := exists_rank u.records.size RecordId.index_injective
    (fun _ _ ⟨_, _, _, _, _, _, _, _, found, _⟩ => holds_of_entry found) founded
  exact ⟨nakedRank, member, lt_size⟩

/-- Whatever is within another statement is itself one. -/
theorem Within.inside {inner outer : StmtId} (within : u.Within inner outer) :
    u.Holds .statements inner.index := by
  obtain ⟨s, look, -⟩ := bind_eq_ok.mp within
  exact holds_of_entry look

/-- And so is the statement that it is within. -/
theorem Consistent.holds_of_within (c : u.Consistent) {inner outer : StmtId}
    (within : u.Within inner outer) : u.Holds .statements outer.index := by
  have ends := c.parentStmt_ends (π := fun _ => False) within.inside
  rw [within] at ends
  exact ends outer rfl

/-- A rank of statements, lower for those around. -/
theorem Consistent.exists_stmtsRanked (c : u.Consistent) (founded : u.ParentsFounded) :
    ∃ stmtRank, u.StmtsRanked stmtRank := by
  obtain ⟨stmtRank, parent, lt_size⟩ := exists_rank u.statements.size StmtId.index_injective
    (fun _ _ within => c.holds_of_within within) founded
  exact ⟨stmtRank, parent, lt_size⟩

/-- A rank of records, lower for bases. -/
theorem Consistent.exists_basesRanked (c : u.Consistent) (founded : u.BasesFounded) :
    ∃ baseRank, u.BasesRanked baseRank := by
  have bounded (derived parent : RecordId) (derives : u.Derives derived parent) :
      u.Holds .records parent.index := by
    obtain ⟨r, base, look, mem, shape⟩ := derives
    have inside := (c.fits_of_record look).bases base mem
    have ends := c.canonicalShape_ends (π := fun _ => False) inside
    rw [shape] at ends
    exact ends.2.2 parent rfl
  obtain ⟨baseRank, base, lt_size⟩ := exists_rank u.records.size RecordId.index_injective
    bounded founded
  exact ⟨baseRank, base, lt_size⟩

/-- Following synonyms does not raise the rank. -/
theorem Ranked.resolve_le {typeRank : TypeId → Nat} (ranked : u.Ranked typeRank) {steps : Nat}
    {t r : QualifiedType} (ends : u.types.resolve steps t = .ok r) :
    typeRank r.id ≤ typeRank t.id := by
  induction steps generalizing t with
  | zero => cases ends
  | succ steps ih =>
    unfold TypeTable.resolve at ends
    split at ends
    · cases ends
    · next name target look =>
      have falls := ranked.part _ _ (.component look List.mem_cons_self)
      exact Nat.le_trans (ih ends) (Nat.le_of_lt falls)
    · cases ends
      exact Nat.le_refl _

-- ============================================================ conditions that can be computed

/-- An entry is listed with its slot. -/
theorem mem_zipIdx_of_entry {α : Type} {table : Table} {entries : Array α} {index : Nat} {a : α}
    (found : entry table entries index = .ok a) : (a, index) ∈ entries.toList.zipIdx := by
  rw [List.mem_zipIdx_iff_getElem?, Array.getElem?_toList]
  exact eq_of_entry found

/-- Whether every template argument stands in the table before the type that it is one of. -/
def argsPrecede (u : TranslationUnit) : Bool :=
  u.types.shapes.toList.zipIdx.all fun (shape, slot) =>
    match shape with
    | .record id =>
      match u.records[id.index]? with
      | some r => (r.templateArgs.filterMap TemplateArg.type?).all (·.id.index < slot)
      | none => true
    | _ => true

/-- Where template arguments precede their types, as other parts do anyway, no type contains
itself. -/
theorem Consistent.typesFounded (c : u.Consistent) (precede : u.argsPrecede = true) :
    u.TypesFounded := by
  refine not_transGen_self TypeId.index fun whole part step => ?_
  cases step with
  | component look mem =>
    have fits := c.shape_ends (π := fun _ => False) (holds_of_entry look)
    rw [look] at fits
    exact (fits.components _ mem).2
  | @argument id r arg look found mem =>
    have all := List.all_eq_true.mp precede _ (mem_zipIdx_of_entry look)
    simp only [eq_of_entry found, List.all_eq_true, decide_eq_true_eq] at all
    exact all arg (List.mem_filterMap.mpr ⟨_, mem, rfl⟩)

/-- Whether the record of a type, if it is one, and its template stand before a slot. -/
def recordPrecedes (u : TranslationUnit) (slot : Nat) (t : QualifiedType) : Bool :=
  match u.types.canonicalShape t with
  | .ok (.record id) =>
    id.index < slot && (u.records[id.index]?.bind (·.pattern)).all (·.index < slot)
  | _ => true

/-- Whether the records of all members stand in the table before the record that they are members
of. -/
def membersPrecede (u : TranslationUnit) : Bool :=
  u.records.toList.zipIdx.all fun (r, slot) =>
    r.fields.all (fun f => u.recordPrecedes slot f.type)
      && r.bases.all fun b => u.recordPrecedes slot b.type

/-- Members that come before their records make naked structs well founded. -/
theorem nakedFounded (precede : u.membersPrecede = true) : u.NakedFounded := by
  refine not_transGen_self RecordId.index fun outer inner member => ?_
  obtain ⟨r, field, id, _, look, mem, shape, ⟨m, found, defines⟩, -, -⟩ := member
  have all := List.all_eq_true.mp precede _ (mem_zipIdx_of_entry look)
  have earlier := List.all_eq_true.mp (Bool.and_eq_true_iff.mp all).1 field mem
  unfold recordPrecedes at earlier
  simp only [shape, eq_of_entry found, Option.bind_some, Bool.and_eq_true,
    decide_eq_true_eq] at earlier
  rcases defines with ⟨-, rfl⟩ | ⟨-, known, -⟩
  · exact earlier.1
  · rw [known] at earlier
    simpa using earlier.2

/-- Where no record is a naked struct there are none among members either. -/
theorem nakedFounded_of_untagged (untagged : ∀ r ∈ u.records, r.has .nakedStruct = false) :
    u.NakedFounded := by
  refine not_transGen_self RecordId.index fun outer inner member => ?_
  obtain ⟨_, _, _, r, _, _, _, _, look, isNaked⟩ := member
  have notNaked := untagged r (Array.mem_of_getElem? (eq_of_entry look))
  exact absurd isNaked (notNaked ▸ Bool.false_ne_true)

private theorem basesFounded (precede : u.membersPrecede = true) : u.BasesFounded := by
  refine not_transGen_self RecordId.index fun derived parent derives => ?_
  obtain ⟨r, base, look, mem, shape⟩ := derives
  have all := List.all_eq_true.mp precede _ (mem_zipIdx_of_entry look)
  have earlier := List.all_eq_true.mp (Bool.and_eq_true_iff.mp all).2 base mem
  unfold recordPrecedes at earlier
  simp only [shape, Bool.and_eq_true, decide_eq_true_eq] at earlier
  exact earlier.1

/-- Whether every statement stands in the table before the one around it. -/
def parentsFollow (u : TranslationUnit) : Bool :=
  u.statements.toList.zipIdx.all fun (s, slot) => s.parent.all (slot < ·.index)

/-- Parents that come after what they list make statements well founded. -/
theorem Consistent.parentsFounded (c : u.Consistent) (follow : u.parentsFollow = true) :
    u.ParentsFounded := by
  -- here the link goes forwards, so the distance to the end of the table falls
  refine not_transGen_self (fun s => u.statements.size - s.index) fun inner outer within => ?_
  have inside : outer.index < u.statements.size := c.holds_of_within within
  obtain ⟨s, look, isParent⟩ := bind_eq_ok.mp within
  have later := List.all_eq_true.mp follow _ (mem_zipIdx_of_entry look)
  have known : s.parent = some outer := Except.ok.inj isParent
  simp only [known, Option.all_some, decide_eq_true_eq] at later
  omega

/-- Whether everything stands in its table on the one side of what it is part of. -/
def isLayered (u : TranslationUnit) : Bool :=
  u.argsPrecede && u.membersPrecede && u.parentsFollow

/-- A layered unit is founded. -/
theorem Consistent.founded (c : u.Consistent) (layered : u.isLayered = true) : u.Founded := by
  simp only [isLayered, Bool.and_eq_true] at layered
  obtain ⟨⟨args, members⟩, parents⟩ := layered
  exact ⟨c.typesFounded args, nakedFounded members, basesFounded members, c.parentsFounded parents⟩

end TranslationUnit

end SafeDialect
