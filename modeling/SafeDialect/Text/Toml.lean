/-
TOML tables, as far as options need them.

A document is a list of lines: headers that open a table, and assignments into the table opened
last. How a table came to be decides what may still be added to it, so that no key is defined
twice:

* a header opens a table once, also one that only stood in the path of an earlier header;
* a dotted key adds to tables that dotted keys made, and to no others;
* nothing is added to an inline table.

There are no numbers and no dates here, and no arrays of tables: no option is one.
-/

namespace SafeDialect

/-- How a table came to be. -/
inductive TableOrigin where
  /-- Opened by its own header. -/
  | header
  /-- On the path of another table's header. -/
  | implied
  /-- Made by a dotted key. -/
  | dotted
  /-- Written in braces. -/
  | inline
  deriving DecidableEq

inductive Toml where
  | text (value : String)
  | bool (value : Bool)
  | array (items : List Toml)
  | table (origin : TableOrigin) (entries : List (String × Toml))

namespace Toml

instance : Inhabited Toml := ⟨bool false⟩

/-- The entries of a table, in the order in which they were made. -/
abbrev Entries := List (String × Toml)

namespace Entries

/-- The value of a key. -/
def get? (es : Entries) (key : String) : Option Toml :=
  (List.find? (fun e => e.1 == key) es).map Prod.snd

/-- Puts another value in the place of a key's. -/
def put (es : Entries) (key : String) (value : Toml) : Entries :=
  es.map fun e => if e.1 = key then (key, value) else e

/-- Assigns a value to a dotted key. -/
def assign (value : Toml) : (path : List String) → Entries → Option Entries
  | [], _ => none
  | [key], es => if (es.get? key).isSome then none else some (es ++ [(key, value)])
  | key :: next :: rest, es =>
    match es.get? key with
    | none => do
      let inner ← assign value (next :: rest) []
      return es ++ [(key, .table .dotted inner)]
    | some (.table origin inner) =>
      if origin = .dotted ∨ (origin = .implied ∧ rest ≠ []) then do
        let inner ← assign value (next :: rest) inner
        return es.put key (.table origin inner)
      else none
    | some _ => none

/-- Opens the table of a header. -/
def openTable : (path : List String) → Entries → Option Entries
  | [], _ => none
  | [key], es =>
    match es.get? key with
    | none => some (es ++ [(key, .table .header [])])
    | some (.table .implied inner) => some (es.put key (.table .header inner))
    | some _ => none
  | key :: next :: rest, es =>
    match es.get? key with
    | none => do
      let inner ← openTable (next :: rest) []
      return es ++ [(key, .table .implied inner)]
    | some (.table origin inner) =>
      if origin = .inline then none
      else do
        let inner ← openTable (next :: rest) inner
        return es.put key (.table origin inner)
    | some _ => none

/-- Changes the entries of the table at a path of headers. -/
def changeAt (change : Entries → Option Entries) : (path : List String) → Entries → Option Entries
  | [], es => change es
  | key :: rest, es =>
    match es.get? key with
    | some (.table origin inner) => do
      let inner ← changeAt change rest inner
      return es.put key (.table origin inner)
    | _ => none

end Entries

-- ============================================================ lines

/-- A line of a document that says something. -/
inductive Line where
  | header (path : List String)
  | assign (path : List String) (value : Toml)

/-- The entries of a document after some lines, with the table `current` opened last. -/
def entriesOf (current : List String) (es : Entries) : List Line → Option Entries
  | [] => some es
  | .header path :: rest => do entriesOf path (← es.openTable path) rest
  | .assign path value :: rest => do
    entriesOf current (← es.changeAt (Entries.assign value path) current) rest

end Toml

end SafeDialect
