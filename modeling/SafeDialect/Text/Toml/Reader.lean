/-
Reading TOML text.

Blanks are space and tab, and a line ends with a line feed, with a carriage return before it or not.
A string is basic, with escapes, or literal, without, each on one line or on several. Strings and
comments admit no control character but the tab. In an array lines may end and comments may stand
between the items, and a comma after the last item is admitted; in an inline table neither is.
-/
import SafeDialect.Text.Json.Reader
import SafeDialect.Text.Toml

namespace SafeDialect.Toml

-- ============================================================ blanks, comments and line ends

def isBlank (c : Char) : Bool := c = ' ' || c = '\t'

def skipBlanks (cs : List Char) : List Char := cs.dropWhile isBlank

/-- Whether a character may stand in a comment or, unless it is special there, in a string. -/
def isPlain (c : Char) : Bool := c = '\t' || (0x20 ≤ c.toNat && c.toNat ≠ 0x7f)

/-- What follows a line end. -/
def newline? : List Char → Option (List Char)
  | '\n' :: rest => some rest
  | '\r' :: '\n' :: rest => some rest
  | _ => none

/-- What follows the comment, if one stands here. -/
def skipComment : List Char → List Char
  | '#' :: rest => rest.dropWhile isPlain
  | cs => cs

/-- What follows the rest of a line on which nothing is left but blanks and a comment. -/
def lineEnd? (cs : List Char) : Option (List Char) :=
  match skipComment (skipBlanks cs) with
  | [] => some []
  | rest => newline? rest

/-- What follows blanks, line ends and whole comments. -/
def skipGap (inComment : Bool) : List Char → Option (List Char)
  | [] => if inComment then none else some []
  | '\n' :: rest => skipGap false rest
  | '\r' :: '\n' :: rest => skipGap false rest
  | c :: rest =>
    if inComment then if isPlain c then skipGap true rest else none
    else if isBlank c then skipGap false rest
    else if c = '#' then skipGap true rest
    else some (c :: rest)

-- ============================================================ strings

/-- The character with a number, which is no surrogate. -/
def charOf? (n : Nat) : Option Char :=
  if n < 0xD800 ∨ (0xDFFF < n ∧ n < 0x110000) then some (Char.ofNat n) else none

/-- The character written with four or eight hexadecimal digits. -/
def charOfDigits? (digits : List Char) : Option Char := do
  let values ← digits.mapM Json.hexDigit?
  charOf? (values.foldl (fun n d => n * 16 + d) 0)

/-- The character that a one-letter escape stands for. -/
def escape? : Char → Option Char
  | '"' => some '"'
  | '\\' => some '\\'
  | 'b' => some '\x08'
  | 'f' => some '\x0c'
  | 'n' => some '\n'
  | 'r' => some '\r'
  | 't' => some '\t'
  | _ => none

/-- A basic string up to its closing quote, and what follows. -/
def basic? (done : List Char) : List Char → Option (String × List Char)
  | [] => none
  | '"' :: rest => some (String.ofList done.reverse, rest)
  | '\\' :: 'u' :: a :: b :: c :: d :: rest =>
    match charOfDigits? [a, b, c, d] with
    | some e => basic? (e :: done) rest
    | none => none
  | '\\' :: 'U' :: a :: b :: c :: d :: e :: f :: g :: h :: rest =>
    match charOfDigits? [a, b, c, d, e, f, g, h] with
    | some e => basic? (e :: done) rest
    | none => none
  | '\\' :: c :: rest =>
    match escape? c with
    | some e => basic? (e :: done) rest
    | none => none
  | c :: rest => if isPlain c && c ≠ '\\' then basic? (c :: done) rest else none

/-- A basic string on several lines up to its closing quotes, and what follows. One or two quotes
may stand inside, also right before the closing ones. A backslash at the end of a line leaves out
what follows up to the next character that is no blank and no line end; `trims` says that this is
being done. -/
def multiBasic? (trims : Bool) (done : List Char) : List Char → Option (String × List Char)
  | [] => none
  | '"' :: '"' :: '"' :: '"' :: '"' :: rest => some (String.ofList ('"' :: '"' :: done).reverse, rest)
  | '"' :: '"' :: '"' :: '"' :: rest => some (String.ofList ('"' :: done).reverse, rest)
  | '"' :: '"' :: '"' :: rest => some (String.ofList done.reverse, rest)
  | '\n' :: rest => if trims then multiBasic? true done rest else multiBasic? false ('\n' :: done) rest
  | '\r' :: '\n' :: rest =>
    if trims then multiBasic? true done rest else multiBasic? false ('\n' :: done) rest
  | '\\' :: 'u' :: a :: b :: c :: d :: rest =>
    match charOfDigits? [a, b, c, d] with
    | some e => multiBasic? false (e :: done) rest
    | none => none
  | '\\' :: 'U' :: a :: b :: c :: d :: e :: f :: g :: h :: rest =>
    match charOfDigits? [a, b, c, d, e, f, g, h] with
    | some e => multiBasic? false (e :: done) rest
    | none => none
  | '\\' :: c :: rest =>
    match escape? c with
    | some e => multiBasic? false (e :: done) rest
    | none =>
      if (newline? (skipBlanks (c :: rest))).isSome then
        multiBasic? true done rest
      else none
  | c :: rest =>
    if trims && isBlank c then multiBasic? true done rest
    else if isPlain c && c ≠ '\\' then multiBasic? false (c :: done) rest
    else none

/-- A literal string up to its closing quote, and what follows. -/
def literal? (cs : List Char) : Option (String × List Char) :=
  match cs.span (fun c => isPlain c && c ≠ '\x27') with
  | (inside, '\x27' :: rest) => some (String.ofList inside, rest)
  | _ => none

/-- A literal string on several lines up to its closing quotes, and what follows. -/
def multiLiteral? (done : List Char) : List Char → Option (String × List Char)
  | [] => none
  | '\x27' :: '\x27' :: '\x27' :: '\x27' :: '\x27' :: rest =>
    some (String.ofList ('\x27' :: '\x27' :: done).reverse, rest)
  | '\x27' :: '\x27' :: '\x27' :: '\x27' :: rest =>
    some (String.ofList ('\x27' :: done).reverse, rest)
  | '\x27' :: '\x27' :: '\x27' :: rest => some (String.ofList done.reverse, rest)
  | '\n' :: rest => multiLiteral? ('\n' :: done) rest
  | '\r' :: '\n' :: rest => multiLiteral? ('\n' :: done) rest
  | c :: rest => if isPlain c then multiLiteral? (c :: done) rest else none

/-- A line end right after the opening quotes is no part of the string. -/
def afterOpening (cs : List Char) : List Char := (newline? cs).getD cs

/-- A string of any of the four forms. -/
def string? : List Char → Option (String × List Char)
  | '"' :: '"' :: '"' :: rest => multiBasic? false [] (afterOpening rest)
  | '"' :: rest => basic? [] rest
  | '\x27' :: '\x27' :: '\x27' :: rest => multiLiteral? [] (afterOpening rest)
  | '\x27' :: rest => literal? rest
  | _ => none

-- ============================================================ keys

def isBareKeyChar (c : Char) : Bool := c.isAlphanum || c = '_' || c = '-'

/-- One part of a key: bare, or a string on one line. -/
def simpleKey? : List Char → Option (String × List Char)
  | '"' :: rest => basic? [] rest
  | '\x27' :: rest => literal? rest
  | cs =>
    match cs.span isBareKeyChar with
    | ([], _) => none
    | (key, rest) => some (String.ofList key, rest)

/-- A key of parts with dots between them, and what follows it and its blanks. -/
def keyPath? : (steps : Nat) → List Char → Option (List String × List Char)
  | 0, _ => none
  | steps + 1, cs => do
    let (key, rest) ← simpleKey? (skipBlanks cs)
    match skipBlanks rest with
    | '.' :: rest =>
      let (path, rest) ← keyPath? steps rest
      return (key :: path, rest)
    | rest => return ([key], rest)

-- ============================================================ values

mutual

def value? : (steps : Nat) → List Char → Option (Toml × List Char)
  | 0, _ => none
  | steps + 1, cs =>
    match cs with
    | '[' :: rest => items? steps [] rest
    | '\x7b' :: rest =>
      match skipBlanks rest with
      | '\x7d' :: rest => some (.table .inline [], rest)
      | rest => pairs? steps [] rest
    | 't' :: 'r' :: 'u' :: 'e' :: rest => some (.bool true, rest)
    | 'f' :: 'a' :: 'l' :: 's' :: 'e' :: rest => some (.bool false, rest)
    | cs => (string? cs).map fun (value, rest) => (.text value, rest)

/-- The items of an array up to its end. -/
def items? : (steps : Nat) → (done : List Toml) → List Char → Option (Toml × List Char)
  | 0, _, _ => none
  | steps + 1, done, cs => do
    match ← skipGap false cs with
    | ']' :: rest => return (.array done.reverse, rest)
    | cs =>
      let (item, rest) ← value? steps cs
      match ← skipGap false rest with
      | ',' :: rest => items? steps (item :: done) rest
      | ']' :: rest => return (.array (item :: done).reverse, rest)
      | _ => none

/-- The assignments of an inline table up to its end. -/
def pairs? : (steps : Nat) → (done : Entries) → List Char → Option (Toml × List Char)
  | 0, _, _ => none
  | steps + 1, done, cs => do
    let (path, rest) ← keyPath? cs.length cs
    match rest with
    | '=' :: rest =>
      let (value, rest) ← value? steps (skipBlanks rest)
      let done ← done.assign value path
      match skipBlanks rest with
      | ',' :: rest => pairs? steps done rest
      | '\x7d' :: rest => return (.table .inline done, rest)
      | _ => none
    | _ => none

end

-- ============================================================ lines

/-- The line at the front of a text that says something, and what follows it. -/
def line? (cs : List Char) : Option (Line × List Char) :=
  match cs with
  | '[' :: rest => do
    let (path, rest) ← keyPath? (rest.length + 1) rest
    match rest with
    | ']' :: rest => return (.header path, ← lineEnd? rest)
    | _ => none
  | cs => do
    let (path, rest) ← keyPath? (cs.length + 1) cs
    match rest with
    | '=' :: rest =>
      let (value, rest) ← value? (rest.length + 1) (skipBlanks rest)
      return (.assign path value, ← lineEnd? rest)
    | _ => none

def lines? : (steps : Nat) → (done : List Line) → List Char → Option (List Line)
  | 0, _, _ => none
  | steps + 1, done, cs =>
    match skipBlanks cs with
    | [] => some done.reverse
    | '#' :: rest => do lines? steps done (← lineEnd? ('#' :: rest))
    | '\n' :: rest => lines? steps done rest
    | '\r' :: '\n' :: rest => lines? steps done rest
    | cs => do
      let (line, rest) ← line? cs
      lines? steps (line :: done) rest

/-- A byte order mark in front of a text is passed over. -/
def withoutMark : List Char → List Char
  | '\ufeff' :: cs => cs
  | cs => cs

/-- The entries of a document. -/
def parse? (text : String) : Option Entries := do
  let cs := withoutMark text.toList
  entriesOf [] [] (← lines? (cs.length + 1) [] cs)

end SafeDialect.Toml
