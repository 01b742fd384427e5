/-!
# Text

A text is the list of its characters.  This module fixes what white space is, how a text is
trimmed, how it falls into lines, and how it is cut at a character.

A line break is the character `'\n'`.  `Text.pieces` cuts a text after each line break and
loses nothing (`Text.flatten_pieces`); `Text.lines` takes the breaks away, together with one
`'\r'` directly before a break.
-/

namespace CartTokens

/-! ### Core instances

Sums and powers of natural numbers and hashes of characters are those of the core library, also
where a larger library offers other instances for them. -/

instance (priority := 2000) natZero : Zero Nat := Zero.ofOfNat0

@[default_instance 20000]
instance (priority := 2000) natPow : Pow Nat Nat := instPowNat

instance (priority := 2000) charHash : Hashable Char := instHashableChar

/-! ### Characters -/

/-- A text: the list of its characters. -/
abbrev Text := List Char

/-- A range of character codes, both ends included. -/
structure CodeRange where
  first : Nat
  last : Nat

/-- The character lies in the range. -/
def CodeRange.contains (r : CodeRange) (c : Char) : Bool :=
  r.first ≤ c.toNat && c.toNat ≤ r.last

/-- The characters with the property White_Space. -/
def spaceRanges : List CodeRange :=
  [⟨0x09, 0x0d⟩, ⟨0x20, 0x20⟩, ⟨0x85, 0x85⟩, ⟨0xa0, 0xa0⟩, ⟨0x1680, 0x1680⟩, ⟨0x2000, 0x200a⟩,
   ⟨0x2028, 0x2029⟩, ⟨0x202f, 0x202f⟩, ⟨0x205f, 0x205f⟩, ⟨0x3000, 0x3000⟩]

/-- White space, in every script. -/
def isSpace (c : Char) : Bool :=
  spaceRanges.any (·.contains c)

namespace Text

/-! ### Trimming -/

/-- The text without the characters at its end that satisfy `p`. -/
def dropEndWhile (p : Char → Bool) (t : Text) : Text :=
  (t.reverse.dropWhile p).reverse

/-- The text without white space at either end. -/
def trim (t : Text) : Text :=
  dropEndWhile isSpace (t.dropWhile isSpace)

/-- The text holds nothing but white space. -/
def isBlankLine (t : Text) : Bool :=
  t.all isSpace

/-! ### Lines -/

/-- The lines of a text, each with the line break that ends it. -/
def pieces : Text → List Text
  | [] => []
  | c :: cs =>
    if c = '\n' then [c] :: pieces cs
    else
      match pieces cs with
      | [] => [[c]]
      | p :: ps => (c :: p) :: ps

/-- Cutting a text into pieces loses nothing. -/
theorem flatten_pieces (t : Text) :
  (pieces t).flatten = t
  := by
  induction t with
  | nil => rfl
  | cons c cs ih =>
    rw [pieces]
    split
    · simp [ih]
    · split <;> rename_i h <;> rw [h] at ih <;> simpa using ih

/-- The line without its break, and without one `'\r'` directly before that break. -/
def chomp (line : Text) : Text :=
  match line.reverse with
  | '\n' :: '\r' :: rest => rest.reverse
  | '\n' :: rest => rest.reverse
  | _ => line

/-- The lines of a text, without their breaks. -/
def lines (t : Text) : List Text :=
  (pieces t).map chomp

/-! ### Cutting at a character or a fixed text -/

/-- The parts between the occurrences of `sep`; there is always at least one. -/
def parts (sep : Char) : Text → List Text
  | [] => [[]]
  | c :: cs =>
    if c = sep then [] :: parts sep cs
    else
      match parts sep cs with
      | [] => [[c]]
      | p :: ps => (c :: p) :: ps

/-- What follows `start` in a text that begins with it. -/
def after? : (start text : Text) → Option Text
  | [], t => some t
  | _ :: _, [] => none
  | s :: ss, c :: cs => if s = c then after? ss cs else none

/-- The text begins with `start`. -/
def startsWith (start t : Text) : Bool :=
  (after? start t).isSome

/-- The text without `start` at its beginning, if it is there. -/
def dropStart (start t : Text) : Text :=
  (after? start t).getD t

/-- The text ends with `ending`. -/
def endsWith (ending t : Text) : Bool :=
  ending.isSuffixOf t

/-- A text that begins with `start` is `start` and what follows it. -/
theorem after?_eq_some_iff (start t rest : Text) :
  after? start t = some rest ↔ t = start ++ rest
  := by
  induction start generalizing t with
  | nil => simp [after?, eq_comm]
  | cons s ss ih =>
    cases t with
    | nil => simp [after?]
    | cons c cs =>
      by_cases h : s = c
      · simp [after?, h, ih]
      · simp [after?, h, Ne.symm h]

/-- The texts put one after another, `sep` between neighbours. -/
def join (sep : Text) (ts : List Text) : Text :=
  sep.intercalate ts

/-- The text with the letters `A` to `Z` in lower case. -/
def lower (t : Text) : Text :=
  t.map Char.toLower

end Text

end CartTokens
