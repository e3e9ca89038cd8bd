/-
Writing JSON text, on one line or indented.

In a string literal the quote, the backslash and the control characters are escaped, five of them
with a letter and the others by code; all else stands as it is. Indented text puts each item and
member on a line of its own, two blanks deeper than what holds it, and an empty array or object
stays closed.
-/
import SafeDialect.Text.Json

namespace SafeDialect.Json

/-- A digit of a hexadecimal code. -/
def hexChar (n : Nat) : Char :=
  if n < 10 then Char.ofNat ('0'.toNat + n) else Char.ofNat ('a'.toNat + n - 10)

/-- A character inside a string literal. -/
def escaped (c : Char) : List Char :=
  if c = '"' then ['\\', '"']
  else if c = '\\' then ['\\', '\\']
  else if c = '\x08' then ['\\', 'b']
  else if c = '\x0c' then ['\\', 'f']
  else if c = '\n' then ['\\', 'n']
  else if c = '\r' then ['\\', 'r']
  else if c = '\t' then ['\\', 't']
  else if c.toNat < 0x20 then
    ['\\', 'u', '0', '0', hexChar (c.toNat / 16), hexChar (c.toNat % 16)]
  else [c]

/-- A text as a string literal. -/
def quoted (text : String) : String :=
  "\"" ++ String.ofList (text.toList.flatMap escaped) ++ "\""

/-- A literal that is no text is written as one unpaired surrogate. -/
def quotedLiteral : Literal → String
  | some text => quoted text
  | none => "\"\\ud800\""

/-- A numeral as it stands. -/
def numeralText : Numeral → String
  | .integer isNegative magnitude => (if isNegative then "-" else "") ++ magnitude.repr
  | .decimal text => text

/-- Texts joined with a separator. -/
def joined (separator : String) (texts : List String) : String := separator.intercalate texts

-- ============================================================ on one line

mutual

/-- The value as text on one line, with no blanks in it. -/
def compact : Json → String
  | null => "null"
  | bool b => if b then "true" else "false"
  | number n => numeralText n
  | string s => quotedLiteral s
  | array items => "[" ++ joined "," (compactItems items) ++ "]"
  | object members => "\x7b" ++ joined "," (compactMembers members) ++ "\x7d"

/-- The items of an array, each as text. -/
def compactItems : List Json → List String
  | [] => []
  | v :: rest => compact v :: compactItems rest

def compactMembers : List (Literal × Json) → List String
  | [] => []
  | (key, v) :: rest => (quotedLiteral key ++ ":" ++ compact v) :: compactMembers rest

end

-- ============================================================ indented

/-- The start of a line at a depth of nesting. -/
def newline (depth : Nat) : String := "\n" ++ String.ofList (List.replicate (2 * depth) ' ')

/-- The parts of an array or object, each on its line. -/
def block (opening closing : String) (depth : Nat) (parts : List String) : String :=
  if parts.isEmpty then opening ++ closing
  else
    opening ++ newline (depth + 1) ++ joined ("," ++ newline (depth + 1)) parts ++ newline depth
      ++ closing

mutual

/-- The value as text over several lines, at a depth of nesting. -/
def indented (depth : Nat) : Json → String
  | null => "null"
  | bool b => if b then "true" else "false"
  | number n => numeralText n
  | string s => quotedLiteral s
  | array items => block "[" "]" depth (indentedItems (depth + 1) items)
  | object members => block "\x7b" "\x7d" depth (indentedMembers (depth + 1) members)

def indentedItems (depth : Nat) : List Json → List String
  | [] => []
  | v :: rest => indented depth v :: indentedItems depth rest

def indentedMembers (depth : Nat) : List (Literal × Json) → List String
  | [] => []
  | (key, v) :: rest =>
    (quotedLiteral key ++ ": " ++ indented depth v) :: indentedMembers depth rest

end

/-- The value as text over several lines. -/
def pretty (v : Json) : String := indented 0 v

end SafeDialect.Json
