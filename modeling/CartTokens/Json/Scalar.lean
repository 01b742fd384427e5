import CartTokens.Text.Decimal

/-!
# Strings and numbers of JSON

Readers for the smallest parts of a JSON text.  A reader takes the text from where it stands and
gives what it read and the rest; it stops at the first fault from the left.  The faults are told
apart: the text ends too early, it is not JSON, or it is JSON of another type than asked for.
-/

namespace CartTokens

/-- Why a text cannot be read. -/
inductive JsonFault where
  | truncated
  | malformed
  | mismatched
  deriving DecidableEq, Repr

/-- A reader of values of type `α`. -/
abbrev JsonReader (α : Type) := Text → Except JsonFault (α × Text)

namespace JsonReader

/-- A blank between the parts of a JSON text. -/
def isGap (c : Char) : Bool :=
  c == ' ' || c == '\n' || c == '\t' || c == '\r'

/-- The text from its next part on. -/
def skipGaps (t : Text) : Text :=
  t.dropWhile isGap

/-- Reads the rest of a fixed word. -/
def word : (expected text : Text) → Except JsonFault Text
  | [], t => .ok t
  | _ :: _, [] => .error .truncated
  | e :: es, c :: cs => if e = c then word es cs else .error .malformed

/-! ### Strings -/

/-- The value of a hexadecimal digit. -/
def hexValue? (c : Char) : Option Nat :=
  if c.isDigit then some (c.toNat - '0'.toNat)
  else if 'a' ≤ c ∧ c ≤ 'f' then some (c.toNat - 'a'.toNat + 10)
  else if 'A' ≤ c ∧ c ≤ 'F' then some (c.toNat - 'A'.toNat + 10)
  else none

/-- Reads four hexadecimal digits; a text of fewer than four bytes has ended too early. -/
def fourDigits (t : Text) : Except JsonFault Nat :=
  if ((t.take 4).map Char.utf8Size).sum < 4 then .error .truncated
  else
    match t.map hexValue? with
    | some a :: some b :: some c :: some d :: _ => .ok (((a * 16 + b) * 16 + c) * 16 + d)
    | _ => .error .malformed

/-- The character a letter after a backslash stands for. -/
def shortEscape? (c : Char) : Option Char :=
  if c = '\x22' || c = '\\' || c = '/' then some c
  else if c = 'b' then some '\x08'
  else if c = 'f' then some '\x0c'
  else if c = 'n' then some '\n'
  else if c = 'r' then some '\r'
  else if c = 't' then some '\t'
  else none

/-- The first half of a pair that stands for one character. -/
def isHighHalf (n : Nat) : Bool := 0xd800 ≤ n && n ≤ 0xdbff

/-- The second half of such a pair. -/
def isLowHalf (n : Nat) : Bool := 0xdc00 ≤ n && n ≤ 0xdfff

/-- Reads the second half of a pair after its first half. -/
def lowHalf (t : Text) : Except JsonFault Nat :=
  match t with
  | [] => .error .truncated
  | '\\' :: [] => .error .truncated
  | '\\' :: 'u' :: rest =>
    match fourDigits rest with
    | .error fault => .error fault
    | .ok n => if isLowHalf n then .ok n else .error .malformed
  | _ => .error .malformed

/-- Reads an escape after its backslash: the character, and how much text it took. -/
def readEscape (t : Text) : Except JsonFault (Char × Nat) :=
  match t with
  | [] => .error .truncated
  | 'u' :: rest =>
    match fourDigits rest with
    | .error fault => .error fault
    | .ok n =>
      if isLowHalf n then .error .malformed
      else if isHighHalf n then
        match lowHalf (rest.drop 4) with
        | .error fault => .error fault
        | .ok m => .ok (Char.ofNat (0x10000 + (n - 0xd800) * 0x400 + (m - 0xdc00)), 11)
      else .ok (Char.ofNat n, 5)
  | c :: _ =>
    match shortEscape? c with
    | some d => .ok (d, 1)
    | none => .error .malformed

/-- Reads a string after its opening quotation mark. -/
def readString : JsonReader Text
  | [] => .error .truncated
  | c :: cs =>
    if c = '\x22' then .ok ([], cs)
    else if c = '\\' then
      match readEscape cs with
      | .error fault => .error fault
      | .ok (d, n) => (readString (cs.drop n)).map fun (s, rest) => (d :: s, rest)
    else if c.toNat < 0x20 then .error .malformed
    else (readString cs).map fun (s, rest) => (c :: s, rest)
termination_by t => t.length

/-! ### Numbers -/

/-- The parts of a written number: its digits without the point, the place of the point from
the right less the exponent, and whether it is a plain integer. -/
structure Written where
  negative : Bool
  digits : Nat
  exponent : Int
  plain : Bool

/-- The value of digits. -/
def digitsValue (ds : Text) : Nat :=
  ds.foldl (fun n c => n * 10 + digitValue c) 0

/-- Reads an exponent after its letter. -/
def readExponent (t : Text) : Except JsonFault (Int × Text) :=
  let signed := match t with
    | '+' :: rest => (false, rest)
    | '-' :: rest => (true, rest)
    | rest => (false, rest)
  match signed.2 with
  | [] => .error .truncated
  | c :: cs =>
    if c.isDigit then
      let n : Int := digitsValue (c :: cs.takeWhile Char.isDigit)
      .ok (if signed.1 then -n else n, cs.dropWhile Char.isDigit)
    else .error .malformed

/-- Reads what may follow the integer digits of a number. -/
def readFraction (negative : Bool) (whole : Text) (t : Text) :
    Except JsonFault (Written × Text) := do
  let (places, afterPlaces) ← match t with
    | '.' :: rest =>
      match rest.takeWhile Char.isDigit with
      | [] => .error (if rest.isEmpty then .truncated else .malformed)
      | places => .ok (some places, rest.dropWhile Char.isDigit)
    | rest => .ok (none, rest)
  let (exponent, rest) ← match afterPlaces with
    | 'e' :: more => (readExponent more).map fun (n, r) => (some n, r)
    | 'E' :: more => (readExponent more).map fun (n, r) => (some n, r)
    | more => .ok (none, more)
  let decimals := places.getD []
  return ({ negative := negative
            digits := digitsValue (whole ++ decimals)
            exponent := exponent.getD 0 - decimals.length
            plain := places.isNone && exponent.isNone }, rest)

/-- Reads the parts of a number. -/
def readWritten (t : Text) : Except JsonFault (Written × Text) :=
  let signed := match t with
    | '-' :: rest => (true, rest)
    | rest => (false, rest)
  match signed.2 with
  | [] => .error .truncated
  | c :: cs =>
    if c = '0' then
      if cs.head?.any Char.isDigit then .error .malformed
      else readFraction signed.1 [c] cs
    else if c.isDigit then
      readFraction signed.1 (c :: cs.takeWhile Char.isDigit) (cs.dropWhile Char.isDigit)
    else .error .malformed

/-- A number: an integer of 64 bits, or anything else that is written as a number. -/
inductive Numeric where
  | unsigned (n : Nat)
  | negative (n : Nat)
  | other
  deriving DecidableEq, Repr

/-- The number with the given parts; minus zero is no integer. -/
def Written.numeric (w : Written) : Numeric :=
  if !w.plain then .other
  else if w.negative then
    if 0 < w.digits ∧ w.digits ≤ maxSigned + 1 then .negative w.digits else .other
  else if w.digits ≤ maxUnsigned then .unsigned w.digits
  else .other

/-- Reads a number; one that is too large for a floating-point number is refused. -/
def readNumber : JsonReader Numeric := fun t => do
  let (w, rest) ← readWritten t
  if roundsToInfinity w.digits w.exponent then .error .malformed
  else return (w.numeric, rest)

/-- The character begins a number. -/
def startsNumber (c : Char) : Bool := c == '-' || c.isDigit

end JsonReader

end CartTokens
