/-
Reading typed data out of JSON values.

A decoder gets the number of arrays and objects that may still be entered, so that data nested too
deeply is refused while values that nobody looks at may be nested as they like.

* A structure is an object with known keys, each at most once, or an array of the fields in their
  order. Unknown keys are passed over unless the structure is closed.
* A variant is its name, or an object with one member that maps the name to its content.
* An integer is written as one, and lies in its range.
-/
import SafeDialect.Text.Json

namespace SafeDialect

/-- How to read an `α`, given how many containers may still be entered. -/
abbrev Decoder (α : Type) := Nat → Json → Option α

namespace Decoder

/-- How many arrays and objects may lie inside each other. -/
def maxDepth : Nat := 127

/-- Reads a whole value. -/
def run {α : Type} (d : Decoder α) (v : Json) : Option α := d maxDepth v

-- ============================================================ leaves

def bool : Decoder Bool
  | _, .bool b => some b
  | _, _ => none

def text : Decoder String
  | _, .string s => s
  | _, _ => none

/-- A natural number below a bound. -/
def natBelow (bound : Nat) : Decoder Nat
  | _, .number (.integer false n) => if n < bound then some n else none
  | _, _ => none

def nat32 : Decoder Nat := natBelow UInt32.size

def nat64 : Decoder Nat := natBelow UInt64.size

/-- An integer of 64 bits with sign. There is no negative zero. -/
def int64 : Decoder Int
  | _, .number (.integer false n) => if n < UInt64.size / 2 then some n else none
  | _, .number (.integer true n) => if 0 < n ∧ n ≤ UInt64.size / 2 then some (-n) else none
  | _, _ => none

-- ============================================================ containers

/-- The decoder's result, changed by a function. -/
def map {α β : Type} (f : α → β) (d : Decoder α) : Decoder β := fun depth v => (d depth v).map f

def list {α : Type} (d : Decoder α) : Decoder (List α)
  | depth + 1, .array items => items.mapM (d depth)
  | _, _ => none

def optional {α : Type} (d : Decoder α) : Decoder (Option α)
  | _, .null => some none
  | depth, v => (d depth v).map some

-- ============================================================ structures

/-- The fields of a structure, by name, as they were found. -/
structure Fields where
  /-- The structure was given as an array. -/
  isPositional : Bool
  /-- The containers that the fields may enter. -/
  depth : Nat
  found : List (String × Json)

namespace Fields

def find? (fs : Fields) (name : String) : Option Json := (fs.found.find? (·.1 == name)).map Prod.snd

/-- A field that has to be there. -/
def required {α : Type} (fs : Fields) (name : String) (d : Decoder α) : Option α := do
  d fs.depth (← fs.find? name)

/-- A field with a value for when it is missing. -/
def withDefault {α : Type} (fs : Fields) (name : String) (d : Decoder α) (default : α) :
    Option α :=
  match fs.find? name with
  | some v => d fs.depth v
  | none => some default

/-- A field that may be null, and missing where fields have names. -/
def nullable {α : Type} (fs : Fields) (name : String) (d : Decoder α) : Option (Option α) :=
  match fs.find? name with
  | some v => optional d fs.depth v
  | none => if fs.isPositional then none else some none

end Fields

/-- No name of the list occurs twice among the keys. -/
def unrepeated (names : List String) (keys : List String) : Bool :=
  names.all fun name => keys.count name ≤ 1

/-- The members with known keys of an object, all of whose keys are text. -/
def named (isClosed : Bool) (names : List String) (members : List (Literal × Json)) :
    Option (List (String × Json)) := do
  let members ← members.mapM fun (key, v) => key.map (·, v)
  let keys := members.map Prod.fst
  if unrepeated names keys && (!isClosed || keys.all names.contains) then some members else none

/-- Reads a structure with the given field names, from its fields. -/
def structOf {α : Type} (isClosed : Bool) (names : List String) (read : Fields → Option α) :
    Decoder α
  | depth + 1, .object members => do
    let found ← named isClosed names members
    read { isPositional := false, depth, found }
  | depth + 1, .array items =>
    if items.length ≤ names.length then
      read { isPositional := true, depth, found := names.zip items }
    else none
  | _, _ => none

/-- A structure that may have further keys. -/
def struct {α : Type} (names : List String) (read : Fields → Option α) : Decoder α :=
  structOf false names read

/-- A structure without further keys. -/
def closedStruct {α : Type} (names : List String) (read : Fields → Option α) : Decoder α :=
  structOf true names read

-- ============================================================ variants

/-- The content of a variant, with the containers that it may enter. -/
structure Content where
  depth : Nat
  value : Option Json

namespace Content

/-- A variant without content: nothing, or null. -/
def nothing {α : Type} (c : Content) (a : α) : Option α :=
  match c.value with
  | none | some .null => some a
  | _ => none

/-- A variant with content. -/
def holding {α : Type} (c : Content) (d : Decoder α) : Option α := do
  d c.depth (← c.value)

end Content

/-- Reads a variant from its name and content. -/
def variant {α : Type} (read : String → Content → Option α) : Decoder α
  | _, .string (some name) => read name ⟨0, none⟩
  | depth + 1, .object [(some name, v)] => read name ⟨depth, some v⟩
  | _, _ => none

/-- A variant without content, by a function that knows the names. -/
def enumeration {α : Type} (ofName? : String → Option α) : Decoder α :=
  variant fun name c => do c.nothing (← ofName? name)

end Decoder

end SafeDialect
