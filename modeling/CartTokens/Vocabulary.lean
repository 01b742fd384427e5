import CartTokens.Text.Basic

/-!
# Vocabulary

The characters and words the language of cartridges knows: button glyphs, classes of
characters, the word lists that decide the kind of a token, and the shapes of numbers,
strings and names.
-/

namespace CartTokens

/-- The token limit of a cartridge. -/
def tokenLimit : Nat := 8192

/-! ### Characters -/

/-- The button glyphs, which may stand in names like letters. -/
def glyphs : List Char := ['❎', '🅾', '⬆', '⬇', '⬅', '➡', '❞']

/-- The selector that asks for the picture form of a glyph; it separates tokens like a blank. -/
def variationSelector : Char := '\ufe0f'

/-- An ASCII letter. -/
def isLetter (c : Char) : Bool := c.isAlpha

/-- An ASCII digit. -/
def isDigit (c : Char) : Bool := c.isDigit

/-- A button glyph. -/
def isGlyph (c : Char) : Bool := glyphs.contains c

/-- A character a name may begin with. -/
def isNameStart (c : Char) : Bool := isLetter c || c == '_' || isGlyph c

/-- A character a name may go on with. -/
def isNameChar (c : Char) : Bool := isNameStart c || isDigit c

/-- A character that only separates tokens. -/
def isBlank (c : Char) : Bool := c == variationSelector || isSpace c

/-- A hexadecimal digit, in either case. -/
def isHexDigit (c : Char) : Bool :=
  isDigit c || ('a' ≤ c && c ≤ 'f') || ('A' ≤ c && c ≤ 'F')

/-- A digit of the numbers that `0` and the given mark begin. -/
def isRadixDigit (mark c : Char) : Bool :=
  if mark == 'x' || mark == 'X' then isHexDigit c
  else if mark == 'b' || mark == 'B' then c == '0' || c == '1'
  else false

/-- A quotation mark that encloses strings. -/
def isQuote (c : Char) : Bool := c == '\x22' || c == '\x27'

/-! ### Words -/

/-- What begins a comment that runs to the end of its line. -/
def lineMarkers : List Text := ["--", "//"].map String.toList

/-- Constants of the language. -/
def literals : List Text := ["nil", "false", "true"].map String.toList

/-- Operators, in signs and in letters. -/
def operators : List Text :=
  ["+", "-", "*", "/", "%", "^", "=", "==", "+=", "-=", "*=", "/=", "%=", "^=", ">=", "<=",
   "~=", "!=", "<", ">", "..", "#", "@", "$", "&", "|", "~", "\\", "?", "and", "or",
   "not"].map String.toList

/-- Keywords that count. -/
def keywords : List Text :=
  ["if", "then", "else", "elseif", "while", "do", "for", "in", "repeat", "until", "function",
   "return", "break", "goto"].map String.toList

/-- Opening brackets. -/
def symbols : List Text := ["(", "[", "\x7b"].map String.toList

/-- The operators that two neighbouring tokens may form. -/
def compounds : List Text :=
  ["==", "+=", "-=", ">=", "<=", "..", "~=", "!=", "*=", "/=", "%=", "^="].map String.toList

/-- Closing brackets, separators and `end`, which are free. -/
def structural : List Text := ["end", ",", ")", "\x7d", "]", ":", ";", "."].map String.toList

/-- Words in the shape of a name that are free. -/
def elidedWords : List Text := ["local"].map String.toList

/-- The tokens after which a minus sign belongs to the number that follows it. -/
def signContexts : List Text :=
  ["and", "or", "not", "return", "local", "if", "elseif", "while", "until", "+", "-", "*",
   "/", "%", "^", "=", "==", "+=", "-=", "*=", "/=", "%=", "^=", ">=", "<=", "~=", "!=", "<",
   ">", "..", "(", "[", "\x7b", ";", "?", "&", "|"].map String.toList

/-- The two texts together are a compound operator. -/
def isCompound (a b : Text) : Bool := compounds.contains (a ++ b)

/-! ### Shapes -/

/-- Digits and nothing else. -/
def isPlainNumber (t : Text) : Bool := !t.isEmpty && t.all isDigit

/-- At least one of the given digits, and besides them only dots. -/
def isDotted (digit : Char → Bool) (t : Text) : Bool :=
  t.any digit && t.all fun c => c == '.' || digit c

/-- The shape of a number without a sign. -/
def isUnsignedNumber : Text → Bool
  | '0' :: mark :: rest =>
    if mark == 'x' || mark == 'X' || mark == 'b' || mark == 'B' then
      isDotted (isRadixDigit mark) rest
    else isDotted isDigit ('0' :: mark :: rest)
  | t => isDotted isDigit t

/-- The shape of a number, one minus sign allowed before it. -/
def isNumber : Text → Bool
  | '-' :: rest => isUnsignedNumber rest
  | t => isUnsignedNumber t

/-- The text begins like a string; it need not be closed. -/
def isString (t : Text) : Bool := t.head?.any isQuote

/-- Glyphs and nothing else. -/
def isGlyphRun (t : Text) : Bool := !t.isEmpty && t.all isGlyph

/-- The shape of a name. -/
def isName : Text → Bool
  | [] => false
  | c :: cs => isNameStart c && cs.all isNameChar

end CartTokens
