/-
JSON values as they are written.

The members of an object keep their order and may repeat a key: which repetition is an error is
decided by whoever reads the value. A number written as an integer is kept apart from one with a
fraction or an exponent, and so is its sign, because `-0` is no integer for a reader. A string
literal may hold an unpaired surrogate escape; then it is well formed as a literal but is no text.
-/

namespace SafeDialect

/-- The text of a string literal, or `none` if an unpaired surrogate keeps it from being text. -/
abbrev Literal := Option String

/-- A number as written. -/
inductive Numeral where
  | integer (isNegative : Bool) (magnitude : Nat)
  /-- A number with a fraction or an exponent. -/
  | decimal (text : String)
  deriving DecidableEq

/-- A JSON value. -/
inductive Json where
  | null
  | bool (value : Bool)
  | number (value : Numeral)
  | string (value : Literal)
  | array (items : List Json)
  | object (members : List (Literal × Json))

namespace Json

instance : Inhabited Json := ⟨null⟩

/-- A number that is not negative. -/
def ofNat (n : Nat) : Json := number (.integer false n)

/-- A whole number with its sign. -/
def ofInt (n : Int) : Json := number (.integer (n < 0) n.natAbs)

/-- A text, as a literal that is one. -/
def ofString (text : String) : Json := string (some text)

/-- An object with the given members. -/
def record (members : List (String × Json)) : Json :=
  object (members.map fun (key, value) => (some key, value))

/-- A value that may be missing, with `null` for none. -/
def ofOption {α : Type} (encode : α → Json) : Option α → Json
  | some a => encode a
  | none => null

/-- A list, item by item. -/
def ofList {α : Type} (encode : α → Json) (items : List α) : Json := array (items.map encode)

/-- The last member with a key, of an object. -/
def get? (key : String) : Json → Option Json
  | object members => (members.reverse.find? (·.1 == some key)).map Prod.snd
  | _ => none

end Json

end SafeDialect
