/-
Reading JSON text.

The text is cut into tokens, and the tokens are read as one value. Blanks are space, tab, line
feed and carriage return. A string literal admits no raw control character. A number has no leading
zero, and digits on both sides of its point. Nothing follows the value but blanks. Nesting is not
limited here; a limit is the business of the one who reads the value.
-/
import SafeDialect.Text.Json

namespace SafeDialect.Json

inductive Token where
  | openObject
  | closeObject
  | openArray
  | closeArray
  | colon
  | comma
  | null
  | bool (value : Bool)
  | number (value : Numeral)
  | string (value : Literal)

-- ============================================================ string literals

/-- One character of a string literal: as it stands, or a 16-bit unit written with `\u`. -/
inductive Piece where
  | plain (c : Char)
  | unit (value : Nat)

/-- The value of a hexadecimal digit. -/
def hexDigit? (c : Char) : Option Nat :=
  if '0' ≤ c ∧ c ≤ '9' then some (c.toNat - '0'.toNat)
  else if 'a' ≤ c ∧ c ≤ 'f' then some (c.toNat - 'a'.toNat + 10)
  else if 'A' ≤ c ∧ c ≤ 'F' then some (c.toNat - 'A'.toNat + 10)
  else none

/-- The unit with four hexadecimal digits. -/
def unit? (a b c d : Char) : Option Nat := do
  return (((← hexDigit? a) * 16 + (← hexDigit? b)) * 16 + (← hexDigit? c)) * 16 + (← hexDigit? d)

def isHighSurrogate (n : Nat) : Bool := 0xD800 ≤ n && n < 0xDC00

def isLowSurrogate (n : Nat) : Bool := 0xDC00 ≤ n && n < 0xE000

/-- The text of a literal's pieces: a high and a low surrogate make one character, and neither
stands alone. -/
def textOf (done : List Char) : List Piece → Literal
  | [] => some (String.ofList done.reverse)
  | .plain c :: rest => textOf (c :: done) rest
  | .unit n :: rest =>
    if isHighSurrogate n then
      match rest with
      | .unit low :: rest =>
        if isLowSurrogate low then
          textOf (Char.ofNat (0x10000 + (n - 0xD800) * 0x400 + (low - 0xDC00)) :: done) rest
        else none
      | _ => none
    else if isLowSurrogate n then none
    else textOf (Char.ofNat n :: done) rest

/-- The character that a one-letter escape stands for. -/
def escape? : Char → Option Char
  | '"' => some '"'
  | '\\' => some '\\'
  | '/' => some '/'
  | 'b' => some '\x08'
  | 'f' => some '\x0c'
  | 'n' => some '\n'
  | 'r' => some '\r'
  | 't' => some '\t'
  | _ => none

/-- The pieces of a literal up to its closing quote, and what follows the quote. -/
def pieces (done : List Piece) : List Char → Option (List Piece × List Char)
  | [] => none
  | '"' :: rest => some (done.reverse, rest)
  | '\\' :: 'u' :: a :: b :: c :: d :: rest =>
    match unit? a b c d with
    | some n => pieces (.unit n :: done) rest
    | none => none
  | '\\' :: c :: rest =>
    match escape? c with
    | some e => pieces (.plain e :: done) rest
    | none => none
  | c :: rest => if c.toNat < 0x20 ∨ c = '\\' then none else pieces (.plain c :: done) rest

-- ============================================================ numbers

/-- The digits at the front of a text, and what follows them. -/
def spanDigits (cs : List Char) : List Char × List Char := cs.span Char.isDigit

/-- A digit sequence without leading zero at the front of a text. -/
def integerPart? (cs : List Char) : Option (List Char × List Char) :=
  match spanDigits cs with
  | ([], _) => none
  | ('0' :: _ :: _, _) => none
  | found => some found

/-- The fraction at the front of a text, empty if there is none. -/
def fraction? : List Char → Option (List Char × List Char)
  | '.' :: cs =>
    match spanDigits cs with
    | ([], _) => none
    | (digits, rest) => some ('.' :: digits, rest)
  | cs => some ([], cs)

/-- The exponent at the front of a text, empty if there is none. -/
def exponent? : List Char → Option (List Char × List Char)
  | [] => some ([], [])
  | e :: cs =>
    if e = 'e' ∨ e = 'E' then
      let (sign, cs) := match cs with
        | '+' :: cs => (['+'], cs)
        | '-' :: cs => (['-'], cs)
        | cs => ([], cs)
      match spanDigits cs with
      | ([], _) => none
      | (digits, rest) => some (e :: sign ++ digits, rest)
    else some ([], e :: cs)

def valueOfDigits (digits : List Char) : Nat :=
  digits.foldl (fun n c => n * 10 + (c.toNat - '0'.toNat)) 0

/-- The unsigned number at the front of a text. -/
def numeral? (isNegative : Bool) (cs : List Char) : Option (Numeral × List Char) := do
  let (digits, cs) ← integerPart? cs
  let (fraction, cs) ← fraction? cs
  let (exponent, cs) ← exponent? cs
  if fraction.isEmpty && exponent.isEmpty then
    return (.integer isNegative (valueOfDigits digits), cs)
  else
    let sign := if isNegative then ['-'] else []
    return (.decimal (String.ofList (sign ++ digits ++ fraction ++ exponent)), cs)

-- ============================================================ tokens

/-- The token at the front of a text that does not start with a blank. -/
def token? : List Char → Option (Token × List Char)
  | '{' :: rest => some (.openObject, rest)
  | '}' :: rest => some (.closeObject, rest)
  | '[' :: rest => some (.openArray, rest)
  | ']' :: rest => some (.closeArray, rest)
  | ':' :: rest => some (.colon, rest)
  | ',' :: rest => some (.comma, rest)
  | 'n' :: 'u' :: 'l' :: 'l' :: rest => some (.null, rest)
  | 't' :: 'r' :: 'u' :: 'e' :: rest => some (.bool true, rest)
  | 'f' :: 'a' :: 'l' :: 's' :: 'e' :: rest => some (.bool false, rest)
  | '"' :: rest => (pieces [] rest).map fun (found, rest) => (.string (textOf [] found), rest)
  | '-' :: rest => (numeral? true rest).map fun (n, rest) => (.number n, rest)
  | cs => (numeral? false cs).map fun (n, rest) => (.number n, rest)

def isBlank (c : Char) : Bool := c = ' ' || c = '\t' || c = '\n' || c = '\r'

/-- The tokens of a text. Each step takes a character at least, so as many steps as there are
characters are enough. -/
def tokens? (done : List Token) : (steps : Nat) → List Char → Option (List Token)
  | _, [] => some done.reverse
  | 0, _ => none
  | steps + 1, c :: cs =>
    if isBlank c then tokens? done steps cs
    else
      match token? (c :: cs) with
      | some (t, rest) => tokens? (t :: done) steps rest
      | none => none

-- ============================================================ values

mutual

/-- The value at the front of a token sequence. -/
def value? : (steps : Nat) → List Token → Option (Json × List Token)
  | 0, _ => none
  | _ + 1, .null :: rest => some (.null, rest)
  | _ + 1, .bool b :: rest => some (.bool b, rest)
  | _ + 1, .number n :: rest => some (.number n, rest)
  | _ + 1, .string s :: rest => some (.string s, rest)
  | _ + 1, .openArray :: .closeArray :: rest => some (.array [], rest)
  | _ + 1, .openObject :: .closeObject :: rest => some (.object [], rest)
  | steps + 1, .openArray :: rest => items? steps [] rest
  | steps + 1, .openObject :: rest => members? steps [] rest
  | _ + 1, _ => none

/-- The further items of an array, up to its end. -/
def items? : (steps : Nat) → (done : List Json) → List Token → Option (Json × List Token)
  | 0, _, _ => none
  | steps + 1, done, ts =>
    match value? steps ts with
    | some (v, .comma :: rest) => items? steps (v :: done) rest
    | some (v, .closeArray :: rest) => some (.array (v :: done).reverse, rest)
    | _ => none

/-- The further members of an object, up to its end. -/
def members? : (steps : Nat) → (done : List (Literal × Json)) → List Token →
    Option (Json × List Token)
  | 0, _, _ => none
  | steps + 1, done, .string key :: .colon :: ts =>
    match value? steps ts with
    | some (v, .comma :: rest) => members? steps ((key, v) :: done) rest
    | some (v, .closeObject :: rest) => some (.object ((key, v) :: done).reverse, rest)
    | _ => none
  | _ + 1, _, _ => none

end

/-- The value that a text spells. -/
def parse? (text : String) : Option Json := do
  let cs := text.toList
  let ts ← tokens? [] cs.length cs
  match value? (2 * ts.length + 2) ts with
  | some (v, []) => some v
  | _ => none

end SafeDialect.Json
