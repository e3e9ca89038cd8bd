/-
Values that a decoder reads back.

`Encodes d v a` says that the JSON value `v` can be written as text, and that the decoder `d` reads
it as `a` wherever as many containers may be entered as `v` has inside each other. There is one rule
for each way to put a decoder together. A structure is read field by field: `Gives` says what a
reader of fields makes of the members that an encoder has written.
-/
import Mathlib.Data.List.Nodup
import SafeDialect.Interchange.Type
import SafeDialect.Proofs.Text.Json

namespace SafeDialect

-- ============================================================ nesting

namespace Json

mutual

/-- How many arrays and objects lie inside each other. -/
def nesting : Json → Nat
  | null | bool _ | number _ | string _ => 0
  | array items => nestingOfItems items + 1
  | object members => nestingOfMembers members + 1

/-- Items nest as deep as the deepest of them. -/
def nestingOfItems : List Json → Nat
  | [] => 0
  | v :: rest => max v.nesting (nestingOfItems rest)

/-- So do members. -/
def nestingOfMembers : List (Literal × Json) → Nat
  | [] => 0
  | (_, v) :: rest => max v.nesting (nestingOfMembers rest)

end

/-- A bound on the nesting of items is one for each of them. -/
theorem nestingOfItems_le_iff {items : List Json} {depth : Nat} :
    nestingOfItems items ≤ depth ↔ ∀ v ∈ items, v.nesting ≤ depth := by
  induction items with
  | nil => simp [nestingOfItems]
  | cons v rest ih => rw [nestingOfItems, Nat.max_le, ih, List.forall_mem_cons]

private theorem nestingOfMembers_le_iff {members : List (Literal × Json)} {depth : Nat} :
    nestingOfMembers members ≤ depth ↔ ∀ m ∈ members, m.2.nesting ≤ depth := by
  induction members with
  | nil => simp [nestingOfMembers]
  | cons m rest ih => rw [nestingOfMembers, Nat.max_le, ih, List.forall_mem_cons]

/-- An object enters one container, and its members nest inside. -/
theorem nesting_record_le_iff {members : List (String × Json)} {depth : Nat} :
    (record members).nesting ≤ depth ↔ ∃ inner, depth = inner + 1
      ∧ ∀ m ∈ members, m.2.nesting ≤ inner := by
  rw [record, nesting]
  constructor
  · intro deep
    have below := nestingOfMembers_le_iff.mp (Nat.le_sub_one_of_lt deep)
    exact ⟨depth - 1, by omega, fun m mem => below _ (List.mem_map_of_mem mem)⟩
  · rintro ⟨inner, rfl, all⟩
    refine Nat.succ_le_succ (nestingOfMembers_le_iff.mpr fun m mem => ?_)
    obtain ⟨m', mem', rfl⟩ := List.mem_map.mp mem
    exact all m' mem'

end Json

-- ============================================================ what a decoder reads back

/-- An integer that fits a word of 64 bits with sign. -/
def FitsInt64 (n : Int) : Prop := Int64.minValue.toInt ≤ n ∧ n ≤ Int64.maxValue.toInt

instance : DecidablePred FitsInt64 := fun _ => inferInstanceAs (Decidable (_ ∧ _))

/-- A value can be written, and the decoder reads it as `a`. -/
structure Encodes {α : Type} (d : Decoder α) (v : Json) (a : α) : Prop where
  whole : v.Whole
  reads : ∀ depth, v.nesting ≤ depth → d depth v = some a

namespace Encodes

variable {α β : Type} {d : Decoder α} {v : Json} {a : α}

/-- A flag is read back. -/
theorem bool (b : Bool) : Encodes .bool (.bool b) b := ⟨.bool b, fun _ _ => rfl⟩

/-- A text is read back. -/
theorem text (t : String) : Encodes .text (.ofString t) t := ⟨.string _, fun _ _ => rfl⟩

/-- A number below the bound of its reader is read back. -/
theorem natBelow {bound n : Nat} (below : n < bound) :
    Encodes (.natBelow bound) (.ofNat n) n := by
  refine ⟨.integer _ _, fun _ _ => ?_⟩
  show (if n < bound then some n else none) = some n
  rw [if_pos below]

/-- A whole number that fits 64 bits is read back, with its sign. -/
theorem int64 {n : Int} (sized : FitsInt64 n) : Encodes .int64 (.ofInt n) n := by
  refine ⟨.integer _ _, fun _ _ => ?_⟩
  obtain ⟨least, most⟩ := sized
  have half : UInt64.size / 2 = 9223372036854775808 := by decide
  rw [show Int64.minValue.toInt = -9223372036854775808 by decide] at least
  rw [show Int64.maxValue.toInt = 9223372036854775807 by decide] at most
  by_cases negative : n < 0
  · rw [Json.ofInt, decide_eq_true negative]
    show (if 0 < n.natAbs ∧ n.natAbs ≤ UInt64.size / 2 then some (-(n.natAbs : Int)) else none) = _
    rw [if_pos ⟨by omega, by omega⟩]
    congr 1
    omega
  · rw [Json.ofInt, decide_eq_false negative]
    show (if n.natAbs < UInt64.size / 2 then some (n.natAbs : Int) else none) = _
    rw [if_pos (by omega)]
    congr 1
    omega

/-- What is made of something that is read back is read back. -/
theorem map (f : α → β) (h : Encodes d v a) : Encodes (.map f d) v (f a) := by
  refine ⟨h.whole, fun depth deep => ?_⟩
  rw [Decoder.map, h.reads depth deep, Option.map_some]

/-- The number of a slot. -/
theorem slot {mk : Nat → α} {index : Nat} (sized : index < UInt32.size) :
    Encodes (.map mk .nat32) (.ofNat index) (mk index) :=
  .map mk (.natBelow sized)

/-- A list is read back item by item, one container deeper than its items. -/
theorem list {encode : α → Json} {l : List α} (each : ∀ x ∈ l, Encodes d (encode x) x) :
    Encodes (.list d) (.ofList encode l) l := by
  constructor
  · refine .array fun v mem => ?_
    obtain ⟨x, inList, rfl⟩ := List.mem_map.mp mem
    exact (each x inList).whole
  · intro depth deep
    obtain ⟨inner, rfl⟩ : ∃ n, depth = n + 1 :=
      ⟨depth - 1, by rw [Json.ofList, Json.nesting] at deep; omega⟩
    have below := Json.nestingOfItems_le_iff.mp (Nat.le_of_succ_le_succ deep)
    show (l.map encode).mapM (d inner) = some l
    clear deep
    induction l with
    | nil => rfl
    | cons x rest ih =>
      have first := (each x List.mem_cons_self).reads inner (below _ List.mem_cons_self)
      have others := ih (fun y mem => each y (List.mem_cons_of_mem _ mem))
        fun w mem => below w (List.mem_cons_of_mem _ mem)
      rw [List.map_cons, List.mapM_cons, first, others]
      rfl

/-- What may be absent is not written as null where it is there. -/
theorem optional {encode : α → Json} {o : Option α}
    (each : ∀ x, o = some x → Encodes d (encode x) x) (notNull : ∀ x, encode x ≠ .null) :
    Encodes (.optional d) (.ofOption encode o) o := by
  cases o with
  | none => exact ⟨.null, fun _ _ => rfl⟩
  | some x =>
    refine ⟨(each x rfl).whole, fun depth deep => ?_⟩
    have read := (each x rfl).reads depth deep
    show Decoder.optional d depth (encode x) = _
    rw [Decoder.optional.eq_def]
    split
    · next isNull => exact absurd isNull (notNull x)
    · rw [read, Option.map_some]

/-- The number of a slot that may be absent. -/
theorem slot? {mk : Nat → α} {index : α → Nat} {o : Option α} (back : ∀ x, mk (index x) = x)
    (sized : ∀ x ∈ o, index x < UInt32.size) :
    Encodes (.optional (.map mk .nat32)) (.ofOption (fun x => .ofNat (index x)) o) o := by
  refine .optional (fun x isSome => ?_) (fun _ => nofun)
  have read : Encodes (.map mk .nat32) (.ofNat (index x)) (mk (index x)) := slot (sized x isSome)
  rwa [back] at read

/-- A variant with content. -/
theorem tagged {read : String → Decoder.Content → Option α} {tag : String}
    (pick : ∀ c, read tag c = c.holding d) (h : Encodes d v a) :
    Encodes (.variant read) (.tagged tag v) a := by
  refine ⟨.object fun m mem => ?_, fun depth deep => ?_⟩
  · cases List.mem_singleton.mp mem
    exact h.whole
  · obtain ⟨inner, rfl, all⟩ := Json.nesting_record_le_iff.mp deep
    show read tag ⟨inner, some v⟩ = _
    rw [pick]
    exact h.reads inner (all _ List.mem_cons_self)

/-- A variant without content. -/
theorem name {read : String → Decoder.Content → Option α} {tag : String}
    (pick : ∀ c, read tag c = c.nothing a) : Encodes (.variant read) (.ofString tag) a :=
  ⟨.string _, fun _ _ => pick _⟩

/-- A case without content is read back by its name. -/
theorem enumeration {ofName? : String → Option α} {tag : String} (known : ofName? tag = some a) :
    Encodes (.enumeration ofName?) (.ofString tag) a := by
  unfold Decoder.enumeration
  refine .name fun c => ?_
  rw [known]
  rfl

/-- The first case of a name is the one that it was written for, so names have to differ. -/
theorem oneOf {all : List α} {name : α → String}
    (found : all.find? (name · == name a) = some a) :
    Encodes (.oneOf all name) (.ofString (name a)) a :=
  .enumeration found

end Encodes

-- ============================================================ structures

/-- What a reader of fields makes of the members that have been written. -/
def Gives {β : Type} (members : List (String × Json)) (get : Decoder.Fields → Option β) (b : β) :
    Prop :=
  ∀ depth, (∀ m ∈ members, m.2.nesting ≤ depth) → get ⟨false, depth, members⟩ = some b

namespace Gives

variable {β γ : Type} {members : List (String × Json)} {name : String} {v : Json} {d : Decoder β}
  {b : β}

/-- What needs no field. -/
theorem pure : Gives members (fun _ => Pure.pure b) b := fun _ _ => rfl

/-- Fields are read one after the other. -/
theorem bind {get : Decoder.Fields → Option β} {next : β → Decoder.Fields → Option γ} {c : γ}
    (first : Gives members get b) (then_ : Gives members (next b) c) :
    Gives members (fun fs => get fs >>= fun x => next x fs) c := by
  intro depth deep
  dsimp only
  rw [first depth deep]
  exact then_ depth deep

variable (found : (members.find? (·.1 == name)).map Prod.snd = some v) (h : Encodes d v b)
include found h

/-- A field that was found is read. -/
theorem reads_found {depth : Nat} (deep : ∀ m ∈ members, m.2.nesting ≤ depth) :
    d depth v = some b := by
  obtain ⟨m, isFound, rfl⟩ := Option.map_eq_some_iff.mp found
  exact h.reads depth (deep m (List.mem_of_find?_eq_some isFound))

/-- A field that has to be there is found under its name. -/
theorem required : Gives members (·.required name d) b := by
  intro depth deep
  show (Decoder.Fields.find? ⟨false, depth, members⟩ name).bind (d depth) = some b
  rw [show Decoder.Fields.find? ⟨false, depth, members⟩ name = some v from found]
  exact reads_found found h deep

/-- So is one that may be missing, as it is written. -/
theorem withDefault {default : β} : Gives members (·.withDefault name d default) b := by
  intro depth deep
  unfold Decoder.Fields.withDefault
  dsimp only
  rw [show Decoder.Fields.find? ⟨false, depth, members⟩ name = some v from found]
  exact reads_found found h deep

end Gives

/-- And so is one that may be `null`. -/
theorem Gives.nullable {β : Type} {members : List (String × Json)} {name : String} {v : Json}
    {d : Decoder β} {o : Option β}
    (found : (members.find? (·.1 == name)).map Prod.snd = some v)
    (h : Encodes (.optional d) v o) : Gives members (·.nullable name d) o := by
  intro depth deep
  unfold Decoder.Fields.nullable
  dsimp only
  rw [show Decoder.Fields.find? ⟨false, depth, members⟩ name = some v from found]
  exact Gives.reads_found found h deep

/-- The members of a record are found again, if no key is there twice. -/
theorem named_record {members : List (String × Json)} (distinct : (members.map Prod.fst).Nodup)
    (names : List String) :
    Decoder.named false names (members.map fun (key, v) => (some key, v)) = some members := by
  have keysAreText : (members.map fun (key, v) => (some key, v)).mapM
      (fun ((key, v) : Literal × Json) => key.map (·, v)) = some members := by
    clear distinct
    induction members with
    | nil => rfl
    | cons m rest ih =>
      rw [List.map_cons, List.mapM_cons, ih]
      rfl
  have once : Decoder.unrepeated names (members.map Prod.fst) = true := by
    refine List.all_eq_true.mpr fun name _ => decide_eq_true ?_
    exact List.nodup_iff_count_le_one.mp distinct name
  unfold Decoder.named
  rw [keysAreText]
  show (if (Decoder.unrepeated names (members.map Prod.fst) && (!false || _)) = true then
    some members else none) = some members
  rw [once]
  rfl

/-- A structure whose encoder writes the fields that the decoder knows, each once. -/
theorem Encodes.struct {α : Type} {names : List String} {members : List (String × Json)}
    {read : Decoder.Fields → Option α} {a : α} (distinct : names.Nodup)
    (keys : members.map Prod.fst = names) (whole : members.Forall (·.2.Whole))
    (fields : Gives members read a) : Encodes (.struct names read) (.record members) a := by
  constructor
  · refine .object fun m mem => ?_
    obtain ⟨m', mem', rfl⟩ := List.mem_map.mp mem
    exact List.forall_iff_forall_mem.mp whole m' mem'
  · intro depth deep
    obtain ⟨inner, rfl, all⟩ := Json.nesting_record_le_iff.mp deep
    show (Decoder.named false names _).bind _ = _
    rw [named_record (keys ▸ distinct) names]
    exact fields inner all

end SafeDialect
