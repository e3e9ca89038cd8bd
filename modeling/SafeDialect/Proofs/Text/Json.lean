/-
Reading gives back what writing on one line has written.

A value is written token by token, and the tokens are cut apart again because no token runs on into
what follows it: a literal ends at its quote, and a number at the comma or bracket behind it. The
tokens of a value are read as that value, whatever stands behind them. Numbers have to be written as
integers; all other values can be written and read.
-/
import Mathlib.Data.List.TakeDrop
import SafeDialect.Text.Json.Reader
import SafeDialect.Text.Json.Writer

namespace SafeDialect.Json

/-- All numbers in a value are integers. -/
inductive Whole : Json → Prop where
  | null : Whole .null
  | bool (b : Bool) : Whole (.bool b)
  | integer (isNegative : Bool) (magnitude : Nat) :
      Whole (.number (.integer isNegative magnitude))
  | string (s : Literal) : Whole (.string s)
  | array {items : List Json} (each : ∀ v ∈ items, Whole v) : Whole (.array items)
  | object {members : List (Literal × Json)} (each : ∀ m ∈ members, Whole m.2) :
      Whole (.object members)

-- ============================================================ the tokens of a value

mutual

/-- The tokens that a value is written with. -/
def tokens : Json → List Token
  | null => [.null]
  | bool b => [.bool b]
  | number n => [.number n]
  | string s => [.string s]
  | array items => .openArray :: (tokensOfItems items ++ [.closeArray])
  | object members => .openObject :: (tokensOfMembers members ++ [.closeObject])

/-- The tokens between the brackets of an array. -/
def tokensOfItems : List Json → List Token
  | [] => []
  | [v] => v.tokens
  | v :: w :: rest => v.tokens ++ .comma :: tokensOfItems (w :: rest)

/-- The tokens between the braces of an object. -/
def tokensOfMembers : List (Literal × Json) → List Token
  | [] => []
  | [(key, v)] => .string key :: .colon :: v.tokens
  | (key, v) :: m :: rest =>
    .string key :: .colon :: (v.tokens ++ .comma :: tokensOfMembers (m :: rest))

end

/-- A value starts with a token that ends no array. -/
theorem exists_tokens_eq_cons (v : Json) : ∃ t ts, v.tokens = t :: ts ∧ t ≠ .closeArray := by
  cases v <;> exact ⟨_, _, rfl, nofun⟩

/-- So do several values. -/
private theorem exists_tokensOfItems_eq_cons (v : Json) (more : List Json) :
    ∃ t ts, tokensOfItems (v :: more) = t :: ts ∧ t ≠ .closeArray := by
  obtain ⟨t, ts, first, opens⟩ := v.exists_tokens_eq_cons
  cases more with
  | nil => exact ⟨t, ts, first, opens⟩
  | cons w more =>
    refine ⟨t, ts ++ .comma :: tokensOfItems (w :: more), ?_, opens⟩
    rw [tokensOfItems, first, List.cons_append]

/-- An array that does not end at once has items. -/
private theorem value?_openArray {t : Token} (opens : t ≠ .closeArray) (steps : Nat)
    (ts : List Token) : value? (steps + 1) (.openArray :: t :: ts) = items? steps [] (t :: ts) := by
  cases t with
  | closeArray => exact absurd rfl opens
  | _ => rfl

/-- A value is read from its tokens, whatever follows them. -/
def ReadsBack (v : Json) : Prop :=
  ∀ steps rest, 2 * v.tokens.length ≤ steps → value? steps (v.tokens ++ rest) = some (v, rest)

/-- The items of an array are read one after the other, up to the bracket. Each takes fewer steps
than are left. -/
private theorem items?_tokens {items : List Json} (each : ∀ v ∈ items, v.ReadsBack)
    (some_ : items ≠ [])
    {steps : Nat} (enough : 2 * (tokensOfItems items).length < steps) (done : List Json)
    (rest : List Token) :
    items? steps done (tokensOfItems items ++ .closeArray :: rest)
      = some (.array (done.reverse ++ items), rest) := by
  induction items generalizing steps done with
  | nil => exact absurd rfl some_
  | cons v more ih =>
    obtain ⟨steps, rfl⟩ : ∃ n, steps = n + 1 := ⟨steps - 1, by omega⟩
    have reads := each v List.mem_cons_self
    unfold items?
    cases more with
    | nil =>
      rw [tokensOfItems] at enough ⊢
      rw [reads steps _ (by omega)]
      simp
    | cons w more =>
      simp only [tokensOfItems, List.length_append, List.length_cons] at enough
      rw [tokensOfItems, List.append_assoc, List.cons_append, reads steps _ (by omega)]
      dsimp only
      rw [ih (fun v mem => each v (List.mem_cons_of_mem _ mem)) nofun (by omega)]
      simp

/-- And the members of an object up to the brace. -/
private theorem members?_tokens {members : List (Literal × Json)}
    (each : ∀ m ∈ members, m.2.ReadsBack)
    (some_ : members ≠ []) {steps : Nat} (enough : 2 * (tokensOfMembers members).length < steps)
    (done : List (Literal × Json)) (rest : List Token) :
    members? steps done (tokensOfMembers members ++ .closeObject :: rest)
      = some (.object (done.reverse ++ members), rest) := by
  induction members generalizing steps done with
  | nil => exact absurd rfl some_
  | cons m more ih =>
    obtain ⟨steps, rfl⟩ : ∃ n, steps = n + 1 := ⟨steps - 1, by omega⟩
    obtain ⟨key, v⟩ := m
    have reads : v.ReadsBack := each _ List.mem_cons_self
    cases more with
    | nil =>
      simp only [tokensOfMembers, List.length_cons] at enough
      rw [tokensOfMembers, List.cons_append, List.cons_append, members?,
        reads steps _ (by omega)]
      simp
    | cons w more =>
      simp only [tokensOfMembers, List.length_append, List.length_cons] at enough
      rw [tokensOfMembers, List.cons_append, List.cons_append, List.append_assoc,
        List.cons_append, members?, reads steps _ (by omega)]
      dsimp only
      rw [ih (fun m mem => each m (List.mem_cons_of_mem _ mem)) nofun (by omega)]
      simp

/-- By induction on the value: an array and an object have enough steps for what is in them. -/
private theorem Whole.readsBack {v : Json} (whole : v.Whole) : v.ReadsBack := by
  induction whole with
  | null | bool | integer | string =>
    intro steps rest enough
    obtain ⟨steps, rfl⟩ : ∃ n, steps = n + 1 := ⟨steps - 1, by simp [tokens] at enough; omega⟩
    rfl
  | @array items each ih =>
    intro steps rest enough
    simp only [tokens, List.length_cons, List.length_append, List.length_nil] at enough
    obtain ⟨steps, rfl⟩ : ∃ n, steps = n + 1 := ⟨steps - 1, by omega⟩
    cases items with
    | nil => rfl
    | cons v more =>
      have all := items?_tokens ih nofun (show _ < steps by omega) [] rest
      obtain ⟨t, ts, first, opens⟩ := exists_tokensOfItems_eq_cons v more
      rw [tokens, List.cons_append, List.append_assoc, List.singleton_append, first,
        List.cons_append, value?_openArray opens, ← List.cons_append, ← first, all]
      rfl
  | @object members each ih =>
    intro steps rest enough
    simp only [tokens, List.length_cons, List.length_append, List.length_nil] at enough
    obtain ⟨steps, rfl⟩ : ∃ n, steps = n + 1 := ⟨steps - 1, by omega⟩
    cases members with
    | nil => rfl
    | cons m more =>
      have all := members?_tokens ih nofun (show _ < steps by omega) [] rest
      rw [tokens, List.cons_append, List.append_assoc, List.singleton_append]
      -- an object that is not empty goes on with a key
      obtain ⟨key, v⟩ := m
      cases more with
      | nil => exact all
      | cons w more => exact all

-- ============================================================ literals

/-- A digit is read as it was written. -/
private theorem hexDigit?_hexChar : ∀ n < 16, hexDigit? (hexChar n) = some n := by decide

/-- A character that is neither a quote nor a backslash stands for itself, unless it is a control
character. -/
private theorem pieces_plain {c : Char} (notQuote : c ≠ '"') (notEscape : c ≠ '\\')
    (done : List Piece)
    (rest : List Char) :
    pieces done (c :: rest)
      = if c.toNat < 0x20 ∨ c = '\\' then none else pieces (.plain c :: done) rest := by
  rw [pieces.eq_def]
  split <;> simp_all

/-- Four digits make a unit. -/
private theorem pieces_unit {a b c d : Char} {n : Nat} (code : unit? a b c d = some n)
    (done : List Piece) (rest : List Char) :
    pieces done ('\\' :: 'u' :: a :: b :: c :: d :: rest) = pieces (.unit n :: done) rest := by
  rw [pieces.eq_def]
  simp only [code]

/-- A character as it is written is read as one piece, which stands for the character. -/
theorem exists_piece (c : Char) :
    ∃ p, (∀ done rest, pieces done (escaped c ++ rest) = pieces (p :: done) rest)
      ∧ ∀ done rest, textOf done (p :: rest) = textOf (c :: done) rest := by
  by_cases byLetter : c = '"' ∨ c = '\\' ∨ c = '\x08' ∨ c = '\x0c' ∨ c = '\n' ∨ c = '\r' ∨ c = '\t'
  · refine ⟨.plain c, ?_, fun _ _ => rfl⟩
    rcases byLetter with rfl | rfl | rfl | rfl | rfl | rfl | rfl <;> exact fun _ _ => rfl
  simp only [not_or] at byLetter
  obtain ⟨notQuote, notEscape, n1, n2, n3, n4, n5⟩ := byLetter
  unfold escaped
  simp only [notQuote, notEscape, n1, n2, n3, n4, n5, if_false]
  -- other control characters are written by their code
  by_cases control : c.toNat < 0x20
  · refine ⟨.unit c.toNat, fun done rest => ?_, fun done rest => ?_⟩
    · have code : unit? '0' '0' (hexChar (c.toNat / 16)) (hexChar (c.toNat % 16))
          = some c.toNat := by
        unfold unit?
        rw [hexDigit?_hexChar _ (by omega), hexDigit?_hexChar _ (by omega)]
        show some (((0 * 16 + 0) * 16 + c.toNat / 16) * 16 + c.toNat % 16) = _
        congr 1
        omega
      rw [if_pos control]
      exact pieces_unit code done rest
    · have notHigh : isHighSurrogate c.toNat = false := by
        simp [isHighSurrogate]; omega
      have notLow : isLowSurrogate c.toNat = false := by
        simp [isLowSurrogate]; omega
      rw [textOf.eq_def]
      simp only [notHigh, notLow, Char.ofNat_toNat, Bool.false_eq_true, if_false]
  · refine ⟨.plain c, fun done rest => ?_, fun _ _ => rfl⟩
    rw [if_neg control, List.singleton_append, pieces_plain notQuote notEscape,
      if_neg (not_or.mpr ⟨control, notEscape⟩)]

/-- The characters of a literal are read up to the closing quote, and stand for themselves. -/
theorem exists_pieces (cs : List Char) :
    ∃ ps, (∀ done rest, pieces done (cs.flatMap escaped ++ '"' :: rest)
        = some (done.reverse ++ ps, rest))
      ∧ ∀ done, textOf done ps = some (String.ofList (done.reverse ++ cs)) := by
  induction cs with
  | nil =>
    refine ⟨[], fun done rest => ?_, fun done => ?_⟩
    · rw [List.append_nil]
      rfl
    · rw [List.append_nil]
      rfl
  | cons c cs ih =>
    obtain ⟨p, reads, stands⟩ := exists_piece c
    obtain ⟨ps, readsAll, standsAll⟩ := ih
    refine ⟨p :: ps, fun done rest => ?_, fun done => ?_⟩
    · rw [List.flatMap_cons, List.append_assoc, reads, readsAll]
      simp
    · rw [stands, standsAll]
      simp

/-- What is no text is written as a lone surrogate. -/
private theorem toList_quotedLiteral_none :
    (quotedLiteral none).toList = ['"', '\\', 'u', 'd', '8', '0', '0', '"'] := by
  decide

/-- A text is written between quotes, with its characters escaped. -/
private theorem toList_quotedLiteral_some (text : String) :
    (quotedLiteral (some text)).toList = '"' :: (text.toList.flatMap escaped ++ ['"']) := by
  simp [quotedLiteral, quoted]

/-- A literal is one token, whatever comes after it. -/
private theorem token?_quotedLiteral (s : Literal) (rest : List Char) :
    token? ((quotedLiteral s).toList ++ rest) = some (.string s, rest) := by
  cases s with
  | none =>
    rw [toList_quotedLiteral_none]
    rfl
  | some text =>
    obtain ⟨ps, reads, stands⟩ := exists_pieces text.toList
    rw [toList_quotedLiteral_some, List.cons_append, List.append_assoc, List.singleton_append]
    show (pieces [] (text.toList.flatMap escaped ++ '"' :: rest)).map _ = _
    rw [reads]
    show some (Token.string (textOf [] ps), rest) = _
    rw [stands, List.reverse_nil, List.nil_append, String.ofList_toList]

-- ============================================================ numbers

/-- What stands behind a value: nothing, or a comma or closing bracket. -/
def Delimits (rest : List Char) : Prop :=
  ∀ c tail, rest = c :: tail → c = ',' ∨ c = ']' ∨ c = '}'

/-- Digits are read up to the first character that is none. -/
private theorem spanDigits_append {digits rest : List Char} (all : ∀ c ∈ digits, c.isDigit = true)
    (ends : Delimits rest) : spanDigits (digits ++ rest) = (digits, rest) := by
  have stops : rest.takeWhile Char.isDigit = [] ∧ rest.dropWhile Char.isDigit = rest := by
    cases rest with
    | nil => exact ⟨rfl, rfl⟩
    | cons c tail => rcases ends c tail rfl with rfl | rfl | rfl <;> exact ⟨rfl, rfl⟩
  unfold spanDigits
  rw [List.span_eq_takeWhile_dropWhile, List.takeWhile_append_of_pos all,
    List.dropWhile_append_of_pos all, stops.1, stops.2, List.append_nil]

/-- No number is written with a leading zero. -/
theorem toDigits_head_ne_zero (n : Nat) (pos : 0 < n) (tail : List Char) :
    Nat.toDigits 10 n ≠ '0' :: tail := by
  induction n using Nat.strongRecOn generalizing tail with
  | _ n ih =>
    by_cases small : n < 10
    · rw [Nat.toDigits_of_lt_base small]
      intro same
      have digit := (List.cons.inj same).1
      have noZero : ∀ d < 10, 0 < d → d.digitChar ≠ '0' := by decide
      exact noZero n small pos digit
    · rw [Nat.toDigits_of_base_le (by decide) (by omega)]
      cases front : Nat.toDigits 10 (n / 10) with
      | nil => exact absurd front Nat.toDigits_ne_nil
      | cons d ds =>
        intro same
        have isZero : d = '0' := (List.cons.inj same).1
        exact ih (n / 10) (by omega) (by omega) ds (isZero ▸ front)

/-- A number has no leading zero, so all its digits are its integer part. -/
private theorem integerPart?_toDigits (n : Nat) {rest : List Char} (ends : Delimits rest) :
    integerPart? (Nat.toDigits 10 n ++ rest) = some (Nat.toDigits 10 n, rest) := by
  unfold integerPart?
  rw [spanDigits_append (fun c => Nat.isDigit_of_mem_toDigits (by decide) (by decide)) ends]
  split
  · next empty => exact absurd (Prod.mk.inj empty).1 Nat.toDigits_ne_nil
  · next d ds _ zero =>
    have front := (Prod.mk.inj zero).1
    rcases Nat.eq_zero_or_pos n with rfl | pos
    · cases front
    · exact absurd front (toDigits_head_ne_zero n pos _)
  · rfl

/-- The digits of a number have its value. -/
private theorem valueOfDigits_toDigits (n : Nat) : valueOfDigits (Nat.toDigits 10 n) = n := by
  have known := Nat.ofDigitChars_ten_toDigits (n := n)
  rw [Nat.ofDigitChars_eq_foldl] at known
  unfold valueOfDigits
  simpa only [Nat.mul_comm] using known

/-- A number is read back, if what follows ends it. -/
private theorem numeral?_toDigits (isNegative : Bool) (n : Nat) {rest : List Char}
    (ends : Delimits rest) :
    numeral? isNegative (Nat.toDigits 10 n ++ rest) = some (.integer isNegative n, rest) := by
  have noFraction : fraction? rest = some ([], rest) := by
    cases rest with
    | nil => rfl
    | cons c tail => rcases ends c tail rfl with rfl | rfl | rfl <;> rfl
  have noExponent : exponent? rest = some ([], rest) := by
    cases rest with
    | nil => rfl
    | cons c tail => rcases ends c tail rfl with rfl | rfl | rfl <;> rfl
  unfold numeral?
  rw [integerPart?_toDigits n ends]
  show (fraction? rest).bind _ = _
  rw [noFraction]
  show (exponent? rest).bind _ = _
  rw [noExponent]
  show some (Numeral.integer isNegative (valueOfDigits (Nat.toDigits 10 n)), rest) = _
  rw [valueOfDigits_toDigits]

private theorem token?_digit {c : Char} (digit : c.isDigit = true) (cs : List Char) :
    token? (c :: cs) = (numeral? false (c :: cs)).map fun (n, rest) => (.number n, rest) := by
  rw [token?.eq_def]
  split <;> simp_all

/-- A number is written as its digits, after a sign if it is negative. -/
private theorem toList_numeralText (isNegative : Bool) (n : Nat) :
    (numeralText (.integer isNegative n)).toList
      = (if isNegative then ['-'] else []) ++ Nat.toDigits 10 n := by
  have digits : n.repr.toList = Nat.toDigits 10 n := by
    rw [Nat.repr_eq_ofList_toDigits, String.toList_ofList]
  cases isNegative <;> simp [numeralText, digits]

/-- A number that is written without sign starts with a digit. -/
theorem exists_toDigits_eq_cons (n : Nat) :
    ∃ d ds, Nat.toDigits 10 n = d :: ds ∧ d.isDigit = true := by
  cases front : Nat.toDigits 10 n with
  | nil => exact absurd front Nat.toDigits_ne_nil
  | cons d ds =>
    refine ⟨d, ds, rfl, ?_⟩
    exact Nat.isDigit_of_mem_toDigits (by decide) (by decide) (front ▸ List.mem_cons_self)

/-- A number is one token, if what follows ends it. -/
private theorem token?_numeralText (isNegative : Bool) (n : Nat) {rest : List Char}
    (ends : Delimits rest) : token? ((numeralText (.integer isNegative n)).toList ++ rest)
      = some (.number (.integer isNegative n), rest) := by
  have all := numeral?_toDigits isNegative n ends
  rw [toList_numeralText, List.append_assoc]
  cases isNegative with
  | true =>
    show (numeral? true (Nat.toDigits 10 n ++ rest)).map _ = _
    rw [all]
    rfl
  | false =>
    obtain ⟨d, ds, front, digit⟩ := exists_toDigits_eq_cons n
    rw [front, List.cons_append] at all
    show token? (Nat.toDigits 10 n ++ rest) = _
    rw [front, List.cons_append, token?_digit digit, all]
    rfl

-- ============================================================ cutting a text into tokens

/-- A text is cut into tokens, in as many steps as it has characters or more. -/
def Lexes (cs : List Char) (ts : List Token) : Prop :=
  ∀ done steps, cs.length ≤ steps → tokens? done steps cs = some (done.reverse ++ ts)

theorem Lexes.nil : Lexes [] [] := by
  intro done steps _
  rw [List.append_nil]
  cases steps <;> rfl

/-- A token at the front. -/
private theorem Lexes.token {c : Char} {cs rest : List Char} {t : Token} {ts : List Token}
    (notBlank : isBlank c = false) (front : token? (c :: cs) = some (t, rest))
    (shorter : rest.length ≤ cs.length) (h : Lexes rest ts) : Lexes (c :: cs) (t :: ts) := by
  intro done steps enough
  obtain ⟨steps, rfl⟩ : ∃ n, steps = n + 1 := ⟨steps - 1, by rw [List.length_cons] at enough; omega⟩
  rw [List.length_cons] at enough
  rw [tokens?, notBlank, front]
  show tokens? (t :: done) steps rest = _
  rw [h (t :: done) steps (by omega)]
  simp

/-- A token that is a text of its own in front of what follows. -/
theorem Lexes.text {text rest : List Char} {t : Token} {ts : List Token} {c : Char}
    {more : List Char} (starts : text = c :: more) (notBlank : isBlank c = false)
    (front : token? (text ++ rest) = some (t, rest)) (h : Lexes rest ts) :
    Lexes (text ++ rest) (t :: ts) := by
  rw [starts, List.cons_append] at front ⊢
  exact .token notBlank front (by simp) h

theorem Lexes.quotedLiteral (s : Literal) {rest : List Char} {ts : List Token}
    (h : Lexes rest ts) : Lexes ((quotedLiteral s).toList ++ rest) (.string s :: ts) := by
  have front := token?_quotedLiteral s rest
  cases s with
  | none => exact .text toList_quotedLiteral_none rfl front h
  | some text => exact .text (toList_quotedLiteral_some text) rfl front h

private theorem Lexes.numeral (isNegative : Bool) (n : Nat) {rest : List Char} {ts : List Token}
    (ends : Delimits rest) (h : Lexes rest ts) :
    Lexes ((numeralText (.integer isNegative n)).toList ++ rest)
      (.number (.integer isNegative n) :: ts) := by
  have front := token?_numeralText isNegative n ends
  cases isNegative with
  | true => exact .text (toList_numeralText true n) rfl front h
  | false =>
    obtain ⟨d, ds, first, digit⟩ := exists_toDigits_eq_cons n
    refine .text ((toList_numeralText false n).trans first) ?_ front h
    by_contra blank
    simp only [isBlank, Bool.not_eq_false, Bool.or_eq_true, decide_eq_true_eq] at blank
    rcases blank with ((rfl | rfl) | rfl) | rfl <;> cases digit

/-- What follows a value in an array or an object ends a number. -/
private theorem delimits_cons {c : Char} (ends : c = ',' ∨ c = ']' ∨ c = '}') (tail : List Char) :
    Delimits (c :: tail) := by
  rintro d tail' same
  cases same
  exact ends

/-- The text of a value, in front of what ends it, is cut into the tokens of the value. -/
def LexesBack (v : Json) : Prop :=
  ∀ rest ts, Delimits rest → Lexes rest ts → Lexes (v.compact.toList ++ rest) (v.tokens ++ ts)

/-- Items are separated by commas, and each is followed by a comma or by what follows all. -/
private theorem lexes_items {items : List Json} (each : ∀ v ∈ items, v.LexesBack) {rest : List Char}
    {ts : List Token} (ends : Delimits rest) (h : Lexes rest ts) :
    Lexes ((joined "," (compactItems items)).toList ++ rest) (tokensOfItems items ++ ts) := by
  induction items with
  | nil => exact h
  | cons v more ih =>
    have lexes := each v List.mem_cons_self
    cases more with
    | nil => exact lexes rest ts ends h
    | cons w more =>
      have tail := ih fun v mem => each v (List.mem_cons_of_mem _ mem)
      have split : (joined "," (compactItems (v :: w :: more))).toList ++ rest
          = v.compact.toList
            ++ (',' :: ((joined "," (compactItems (w :: more))).toList ++ rest)) := by
        simp [joined, compactItems, String.toList_intercalate]
      rw [split, tokensOfItems, List.append_assoc, List.cons_append]
      exact lexes _ _ (delimits_cons (.inl rfl) _) (.token rfl rfl (Nat.le_refl _) tail)

/-- A member is its key, a colon and its value. -/
private theorem lexes_member (key : Literal) {v : Json} (lexes : v.LexesBack) {rest : List Char}
    {ts : List Token} (ends : Delimits rest) (h : Lexes rest ts) :
    Lexes ((quotedLiteral key).toList ++ ':' :: (v.compact.toList ++ rest))
      (.string key :: .colon :: (v.tokens ++ ts)) :=
  .quotedLiteral key (.token rfl rfl (Nat.le_refl _) (lexes rest ts ends h))

/-- Members are separated like items. -/
private theorem lexes_members {members : List (Literal × Json)}
    (each : ∀ m ∈ members, m.2.LexesBack)
    {rest : List Char} {ts : List Token} (ends : Delimits rest) (h : Lexes rest ts) :
    Lexes ((joined "," (compactMembers members)).toList ++ rest)
      (tokensOfMembers members ++ ts) := by
  induction members with
  | nil => exact h
  | cons m more ih =>
    obtain ⟨key, v⟩ := m
    have lexes : v.LexesBack := each _ List.mem_cons_self
    cases more with
    | nil =>
      have split : (joined "," (compactMembers [(key, v)])).toList ++ rest
          = (quotedLiteral key).toList ++ ':' :: (v.compact.toList ++ rest) := by
        simp [joined, compactMembers]
      rw [split]
      exact lexes_member key lexes ends h
    | cons w more =>
      have tail := ih fun m mem => each m (List.mem_cons_of_mem _ mem)
      have split : (joined "," (compactMembers ((key, v) :: w :: more))).toList ++ rest
          = (quotedLiteral key).toList ++ ':' :: (v.compact.toList
            ++ (',' :: ((joined "," (compactMembers (w :: more))).toList ++ rest))) := by
        simp [joined, compactMembers, String.toList_intercalate]
      rw [split, tokensOfMembers, List.cons_append, List.cons_append, List.append_assoc,
        List.cons_append]
      exact lexes_member key lexes (delimits_cons (.inl rfl) _)
        (.token rfl rfl (Nat.le_refl _) tail)

/-- A word in front of what follows. -/
theorem Lexes.word {word : String} {c : Char} {more rest : List Char} {t : Token} {ts : List Token}
    (starts : word.toList = c :: more) (notBlank : isBlank c = false)
    (front : token? (c :: (more ++ rest)) = some (t, rest)) (h : Lexes rest ts) :
    Lexes (word.toList ++ rest) (t :: ts) := by
  refine .text starts notBlank ?_ h
  rw [starts, List.cons_append]
  exact front

/-- By induction on the value, as what follows a part ends a number. -/
private theorem Whole.lexesBack {v : Json} (whole : v.Whole) : v.LexesBack := by
  induction whole with
  | null =>
    intro rest ts _ h
    exact .word (show "null".toList = ['n', 'u', 'l', 'l'] by decide) rfl rfl h
  | bool b =>
    intro rest ts _ h
    cases b with
    | true => exact .word (show "true".toList = ['t', 'r', 'u', 'e'] by decide) rfl rfl h
    | false => exact .word (show "false".toList = ['f', 'a', 'l', 's', 'e'] by decide) rfl rfl h
  | integer isNegative n => exact fun rest ts ends h => .numeral isNegative n ends h
  | string s => exact fun rest ts _ h => .quotedLiteral s h
  | @array items each ih =>
    intro rest ts _ h
    have closes : Lexes (']' :: rest) (.closeArray :: ts) := .token rfl rfl (Nat.le_refl _) h
    have inner := lexes_items ih (delimits_cons (.inr (.inl rfl)) rest) closes
    have split : (compact (.array items)).toList ++ rest
        = '[' :: ((joined "," (compactItems items)).toList ++ ']' :: rest) := by
      simp [compact]
    rw [split, tokens, List.cons_append, List.append_assoc, List.singleton_append]
    exact .token rfl rfl (Nat.le_refl _) inner
  | @object members each ih =>
    intro rest ts _ h
    have closes : Lexes ('}' :: rest) (.closeObject :: ts) := .token rfl rfl (Nat.le_refl _) h
    have inner := lexes_members ih (delimits_cons (.inr (.inr rfl)) rest) closes
    have split : (compact (.object members)).toList ++ rest
        = '{' :: ((joined "," (compactMembers members)).toList ++ '}' :: rest) := by
      simp [compact]
    rw [split, tokens, List.cons_append, List.append_assoc, List.singleton_append]
    exact .token rfl rfl (Nat.le_refl _) inner

-- ============================================================ texts

/-- The text of a value without fractions and exponents spells the value. -/
theorem parse?_compact {v : Json} (whole : v.Whole) : parse? v.compact = some v := by
  have cut : tokens? [] v.compact.toList.length v.compact.toList = some v.tokens := by
    have lexes := whole.lexesBack [] [] nofun .nil [] v.compact.toList.length (by simp)
    simpa using lexes
  have read := whole.readsBack (2 * v.tokens.length + 2) [] (by omega)
  rw [List.append_nil] at read
  unfold parse?
  simp only [cut, Option.bind_eq_bind, Option.bind_some, read]

end SafeDialect.Json
