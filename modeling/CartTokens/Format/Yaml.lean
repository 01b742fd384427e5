import CartTokens.Report
import CartTokens.Vocabulary

/-!
# YAML

A report as a YAML document.  A string is written plain if that reads back as the same string,
otherwise in single quotes; with characters that cannot be printed it is written in double
quotes, and with line breaks as a literal block.
-/

namespace CartTokens

namespace Yaml

/-- A character that is written as it is. -/
def isPrintable (c : Char) : Bool :=
  c == '\n' || (0x20 ≤ c.toNat && c.toNat ≤ 0x7e)
    || (0xa0 ≤ c.toNat && c.toNat != 0xfeff && c.toNat != 0xfffe && c.toNat != 0xffff)

/-- A predicate that holds somewhere for two neighbours, the second one missing at the end. -/
def anyPair (p : Char → Option Char → Bool) : Text → Bool
  | [] => false
  | c :: cs => p c cs.head? || anyPair p cs

/-! ### Strings that read as something else -/

/-- The words for nothing, truth and falsehood. -/
def reservedWords : List Text :=
  ["", "~", "null", "Null", "NULL", "true", "True", "TRUE", "false", "False", "FALSE"].map
    String.toList

/-- The words for infinity. -/
def infinityWords : List Text := [".inf", ".Inf", ".INF"].map String.toList

/-- The words for what is not a number. -/
def nanWords : List Text := [".nan", ".NaN", ".NAN"].map String.toList

/-- A text without one leading sign of the given kinds. -/
def dropSign (signs : List Char) : Text → Text
  | c :: cs => if signs.contains c then cs else c :: cs
  | [] => []

/-- Digits with a needless zero in front, after an optional sign. -/
def isPaddedInteger (t : Text) : Bool :=
  match dropSign ['+', '-'] t with
  | '0' :: c :: cs => (c :: cs).all Char.isDigit
  | _ => false

/-- The value of a digit in any base up to sixteen. -/
def digitOf? (base : Nat) (c : Char) : Option Nat :=
  let n :=
    if c.isDigit then c.toNat - '0'.toNat
    else if 'a' ≤ c ∧ c ≤ 'f' then c.toNat - 'a'.toNat + 10
    else if 'A' ≤ c ∧ c ≤ 'F' then c.toNat - 'A'.toNat + 10
    else 16
  if n < base then some n else none

/-- The value of a non-empty text of digits. -/
def valueIn? (base : Nat) (t : Text) : Option Nat :=
  if t.isEmpty then none
  else t.foldl (fun acc c => do return (← acc) * base + (← digitOf? base c)) (some 0)

/-- The digits of a written base have a value up to the given bound. -/
def isBasedUpTo (bound : Nat) : Text → Bool
  | '0' :: 'x' :: ds => (valueIn? 16 ds).any (· ≤ bound)
  | '0' :: 'o' :: ds => (valueIn? 8 ds).any (· ≤ bound)
  | '0' :: 'b' :: ds => (valueIn? 2 ds).any (· ≤ bound)
  | _ => false

/-- An integer of 128 bits with a written base. -/
def isBasedInteger : Text → Bool
  | '-' :: t => isBasedUpTo (2 ^ 127) t
  | t => isBasedUpTo (2 ^ 128 - 1) (dropSign ['+'] t)

/-- The exponent written after the digits of a decimal, zero if there is none. -/
def exponent? : Text → Option Int
  | [] => some 0
  | c :: cs =>
    if c = 'e' ∨ c = 'E' then
      (valueIn? 10 (dropSign ['+', '-'] cs)).map fun n => if cs.head? = some '-' then -n else n
    else none

/-- The decimal without its sign is a finite number: digits with at most one point, at least
one digit, and an optional exponent. -/
def isFiniteUnsigned (t : Text) : Bool :=
  let whole := t.takeWhile Char.isDigit
  let afterWhole := t.dropWhile Char.isDigit
  let places := if afterWhole.head? = some '.' then
    (afterWhole.drop 1).takeWhile Char.isDigit else []
  let rest := if afterWhole.head? = some '.' then
    (afterWhole.drop 1).dropWhile Char.isDigit else afterWhole
  match valueIn? 10 (whole ++ places), exponent? rest with
  | some m, some e => !roundsToInfinity m (e - places.length)
  | _, _ => false

/-- A finite decimal with an optional sign. -/
def isFiniteDecimal (t : Text) : Bool :=
  isFiniteUnsigned (dropSign ['+', '-'] t)

/-- The string would be read as a value of another type. -/
def isAmbiguous (t : Text) : Bool :=
  reservedWords.contains t || isPaddedInteger t || isBasedInteger t || isFiniteDecimal t
    || infinityWords.contains (dropSign ['+', '-'] t) || nanWords.contains t

/-! ### Styles -/

/-- The characters a plain string cannot start with. -/
def indicators : Text := "#,[]\x7b\x7d&*!|>'\"%@`".toList

/-- A blank or the end of the string. -/
def isGap (c : Option Char) : Bool :=
  c.all (· == ' ')

/-- The first characters give the string a meaning of its own. -/
def startsSpecial (t : Text) : Bool :=
  Text.startsWith "---".toList t || Text.startsWith "...".toList t
    || match t with
      | [] => false
      | c :: cs =>
        indicators.contains c || ((c == '-' || c == '?' || c == ':') && isGap cs.head?)

/-- The string reads back when it is written as it is. -/
def isPlain (t : Text) : Bool :=
  !(t.head? == some ' ' || t.getLast? == some ' ' || startsSpecial t
    || anyPair (fun c next => c == ':' && isGap next) t
    || anyPair (fun c next => c == ' ' && next == some '#') t
    || !t.all isPrintable)

/-- The string in single quotes, those inside it doubled. -/
def singleQuoted (t : Text) : Text :=
  '\x27' :: t.flatMap (fun c => if c = '\x27' then ['\x27', '\x27'] else [c]) ++ ['\x27']

/-- The hexadecimal digits of a number, upper case, filled up with zeros to the width. -/
def hex (width n : Nat) : Text :=
  let ds := (Nat.toDigits 16 n).map Char.toUpper
  List.replicate (width - ds.length) '0' ++ ds

/-- The letters of the short escapes. -/
def shortEscapes : List (Char × Char) :=
  [('\x00', '0'), ('\x07', 'a'), ('\x08', 'b'), ('\t', 't'), ('\n', 'n'), ('\x0b', 'v'),
   ('\x0c', 'f'), ('\r', 'r'), ('\x1b', 'e'), ('\x22', '\x22'), ('\\', '\\'),
   ('\u0085', 'N'), ('\u2028', 'L'), ('\u2029', 'P')]

/-- A character in double quotes. -/
def escape (c : Char) : Text :=
  match shortEscapes.lookup c with
  | some letter => ['\\', letter]
  | none =>
    if isPrintable c then [c]
    else if c.toNat ≤ 0xff then '\\' :: 'x' :: hex 2 c.toNat
    else if c.toNat ≤ 0xffff then '\\' :: 'u' :: hex 4 c.toNat
    else '\\' :: 'U' :: hex 8 c.toNat

/-- The string in double quotes. -/
def doubleQuoted (t : Text) : Text :=
  '\x22' :: t.flatMap escape ++ ['\x22']

/-- The string can be a literal block. -/
def isBlock (t : Text) : Bool :=
  !(t.getLast? == some ' ' || anyPair (fun c next => c == ' ' && next == some '\n') t
    || !t.all isPrintable)

/-- The hints after the bar of a literal block: the indentation where the first line does not
show it, and what becomes of the last line breaks. -/
def blockHints (t : Text) : Text :=
  (if t.head? = some ' ' ∨ t.head? = some '\n' then ['2'] else [])
    ++ match t.reverse with
      | '\n' :: '\n' :: _ => ['+']
      | ['\n'] => ['+']
      | '\n' :: _ => []
      | _ => ['-']

/-- A line of a literal block; an empty one is not indented. -/
def blockLine (piece : Text) : Text :=
  if piece = ['\n'] then piece
  else List.replicate 4 ' ' ++ piece.filter (· != '\n') ++ ['\n']

/-- The string as a literal block. -/
def block (t : Text) : Text :=
  '|' :: blockHints t ++ '\n' :: (Text.pieces t).flatMap blockLine

/-- The value of a member, with the line break after it. -/
def string (t : Text) : Text :=
  if t.contains '\n' then
    if isBlock t then block t else doubleQuoted t ++ ['\n']
  else if isAmbiguous t then singleQuoted t ++ ['\n']
  else if isPlain t then t ++ ['\n']
  else if t.all isPrintable then singleQuoted t ++ ['\n']
  else doubleQuoted t ++ ['\n']

/-! ### Documents -/

/-- The entry as an item of a list. -/
def item (e : Entry) : Text :=
  "- name: ".toList ++ string e.name ++ "  tokens: ".toList ++ Text.ofNat e.tokens ++ ['\n']
    ++ match e.path with
      | some p => "  path: ".toList ++ string p.text
      | none => []

/-- The entries. -/
def list (files : List Entry) : Text :=
  if files.isEmpty then " []\n".toList else '\n' :: files.flatMap item

/-- The report as a document. -/
def render (r : Report) : Text :=
  "total: ".toList ++ Text.ofNat r.total ++ "\nlimit: ".toList ++ Text.ofNat r.limit
    ++ "\nremaining: ".toList ++ Text.ofInt r.remaining ++ "\nfiles:".toList ++ list r.files

end Yaml

end CartTokens
