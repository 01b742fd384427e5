import CartTokens.Vocabulary

/-!
# Lexemes

`Lexeme.cut` cuts a text into lexemes from left to right, each as long as it can be, and loses
nothing: `Lexeme.flatMap_text_cut` gives the text back.  `Lexeme.raws` says which raw tokens a
lexeme stands for: a blank and a single dot stand for none, a longer run of dots for its chunks,
any other lexeme for one.
-/

namespace CartTokens

/-- What a raw token looks like. -/
inductive Shape where
  | identifier
  | number
  | string
  | dots
  | single
  deriving DecidableEq, Repr

/-- A token as it stands in the text, before neighbours are merged. -/
structure Raw where
  shape : Shape
  text : Text
  deriving DecidableEq, Repr

/-- A piece of a line that belongs together. -/
inductive Lexeme where
  | blank (c : Char)
  | dots (n : Nat)
  | name (t : Text)
  | number (t : Text)
  | string (t : Text)
  | single (c : Char)
  deriving DecidableEq, Repr

namespace Lexeme

/-- The characters of a lexeme. -/
def text : Lexeme → Text
  | .blank c => [c]
  | .dots n => List.replicate n '.'
  | .name t => t
  | .number t => t
  | .string t => t
  | .single c => [c]

/-! ### Cutting -/

/-- The mark of a number in another radix; the mark needs a digit, one dot allowed between. -/
def radixMark? : Char → Text → Option Char
  | '0', mark :: '.' :: d :: _ => if isRadixDigit mark d then some mark else none
  | '0', mark :: d :: _ => if isRadixDigit mark d then some mark else none
  | _, _ => none

/-- A character of a number with the given digits. -/
def isNumberChar (digit : Char → Bool) (c : Char) : Bool := c == '.' || digit c

/-- The number that begins with the digit `c`, and the rest. -/
def takeNumber (c : Char) (cs : Text) : Text × Text :=
  match radixMark? c cs with
  | some mark =>
    (c :: mark :: (cs.drop 1).takeWhile (isNumberChar (isRadixDigit mark)),
      (cs.drop 1).dropWhile (isNumberChar (isRadixDigit mark)))
  | none =>
    (c :: cs.takeWhile (isNumberChar isDigit), cs.dropWhile (isNumberChar isDigit))

/-- The part of a string after its opening quotation mark, and the rest.  A backslash takes
the next character with it; a string without a closing mark runs to the end. -/
def takeString (quote : Char) : Text → Text × Text
  | [] => ([], [])
  | '\\' :: d :: cs =>
    ('\\' :: d :: (takeString quote cs).1, (takeString quote cs).2)
  | c :: cs =>
    if c = quote then ([c], cs)
    else (c :: (takeString quote cs).1, (takeString quote cs).2)

/-- The first lexeme of a text that begins with `c`, and the rest. -/
def first (c : Char) (cs : Text) : Lexeme × Text :=
  if c = '.' then
    (.dots ((cs.takeWhile (· == '.')).length + 1), cs.dropWhile (· == '.'))
  else if isQuote c then (.string (c :: (takeString c cs).1), (takeString c cs).2)
  else if isBlank c then (.blank c, cs)
  else if isNameStart c then
    (.name (c :: cs.takeWhile isNameChar), cs.dropWhile isNameChar)
  else if isDigit c then (.number (takeNumber c cs).1, (takeNumber c cs).2)
  else (.single c, cs)

/-! ### Nothing is lost -/

theorem eq_replicate_takeWhile_dot (cs : Text) :
  List.replicate (cs.takeWhile (· == '.')).length '.' = cs.takeWhile (· == '.')
  := by
  induction cs with
  | nil => rfl
  | cons c cs ih =>
    by_cases h : c = '.'
    · simp [h, List.replicate_succ, ih]
    · simp [h]

theorem cons_eq_of_radixMark? {c : Char} {cs : Text} {mark : Char}
    (h : radixMark? c cs = some mark) :
  cs = mark :: cs.drop 1
  := by
  unfold radixMark? at h
  split at h <;> simp_all

theorem takeNumber_append (c : Char) (cs : Text) :
  (takeNumber c cs).1 ++ (takeNumber c cs).2 = c :: cs
  := by
  unfold takeNumber
  split
  · rename_i mark h
    simp only [List.cons_append, List.takeWhile_append_dropWhile]
    rw [← cons_eq_of_radixMark? h]
  · simp only [List.cons_append, List.takeWhile_append_dropWhile]

theorem takeString_append (quote : Char) (cs : Text) :
  (takeString quote cs).1 ++ (takeString quote cs).2 = cs
  := by
  fun_induction takeString quote cs with
  | case1 => rfl
  | case2 d cs ih => simpa using ih
  | case3 cs => rfl
  | case4 c cs _ _ ih => simpa using ih

/-- The first lexeme and the rest are the text. -/
theorem text_first_append (c : Char) (cs : Text) :
  (first c cs).1.text ++ (first c cs).2 = c :: cs
  := by
  unfold first
  split
  · rename_i h
    simp [text, h, List.replicate_succ, eq_replicate_takeWhile_dot,
      List.takeWhile_append_dropWhile]
  · split
    · simpa [text] using takeString_append c cs
    · split
      · rfl
      · split
        · simp [text, List.takeWhile_append_dropWhile]
        · split
          · simpa [text] using takeNumber_append c cs
          · rfl

/-- A lexeme takes at least one character. -/
theorem length_first_le (c : Char) (cs : Text) :
  (first c cs).2.length ≤ cs.length
  := by
  have pos : 0 < (first c cs).1.text.length := by
    unfold first
    repeat' split
    all_goals simp [text, takeNumber]
    split <;> simp
  have eq := congrArg List.length (text_first_append c cs)
  simp only [List.length_append, List.length_cons] at eq
  omega

/-- The lexemes of a text, from left to right. -/
def cut : Text → List Lexeme
  | [] => []
  | c :: cs => (first c cs).1 :: cut (first c cs).2
termination_by t => t.length
decreasing_by
  have := length_first_le c cs
  simp only [List.length_cons]
  omega

/-- The lexemes of a text put together are the text. -/
theorem flatMap_text_cut (t : Text) :
  (cut t).flatMap text = t
  := by
  fun_induction cut t with
  | case1 => rfl
  | case2 c cs ih => rw [List.flatMap_cons, ih, text_first_append]

/-! ### Raw tokens -/

/-- The parts of a number cut into threes, the last of them possibly shorter. -/
def threes : Nat → List Nat
  | 0 => []
  | 1 => [1]
  | 2 => [2]
  | n + 3 => 3 :: threes n

/-- The sizes of the chunks of a run of dots: at most four, then at most three each. -/
def dotChunks (n : Nat) : List Nat :=
  if n ≤ 4 then [n] else 4 :: threes (n - 4)

/-- The raw tokens a lexeme stands for. -/
def raws : Lexeme → List Raw
  | .blank _ => []
  | .dots n =>
    if n ≤ 1 then []
    else (dotChunks n).map fun k => ⟨.dots, List.replicate k '.'⟩
  | .name t => [⟨.identifier, t⟩]
  | .number t => [⟨.number, t⟩]
  | .string t => [⟨.string, t⟩]
  | .single c => [⟨.single, [c]⟩]

end Lexeme

/-- The raw tokens of a text. -/
def scan (t : Text) : List Raw :=
  (Lexeme.cut t).flatMap Lexeme.raws

end CartTokens
