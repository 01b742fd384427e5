import CartTokens.Text.Basic

/-!
# Numbers in decimal

Natural numbers and integers as decimal text, right alignment in a column, digits in groups
of three, the reader of unsigned numbers with its three ways to fail, and whether a decimal
number is too large for a finite floating-point number of 64 bits.
-/

namespace CartTokens

namespace Text

/-- The decimal digits of a natural number. -/
def ofNat (n : Nat) : Text :=
  Nat.toDigits 10 n

theorem isDigit_of_mem_ofNat {n : Nat} {c : Char} (h : c ∈ ofNat n) :
  c.isDigit
  := Nat.isDigit_of_mem_toDigits (by decide) (by decide) h

theorem ofNat_ne_nil (n : Nat) :
  ofNat n ≠ []
  := Nat.toDigits_ne_nil

/-- The decimal text of an integer, a minus sign before the digits of a negative one. -/
def ofInt : Int → Text
  | .ofNat n => ofNat n
  | .negSucc n => '-' :: ofNat (n + 1)

/-- The text filled up with blanks on the left to the given width. -/
def alignRight (width : Nat) (t : Text) : Text :=
  List.replicate (width - t.length) ' ' ++ t

/-- Digits with a comma wherever the number of digits that follow is a multiple of three. -/
def groupDigits : Text → Text
  | [] => []
  | [d] => [d]
  | d :: ds =>
    if ds.length % 3 = 0 then d :: ',' :: groupDigits ds else d :: groupDigits ds

/-- The decimal text of an integer, its digits in groups of three. -/
def groupThousands : Int → Text
  | .ofNat n => groupDigits (ofNat n)
  | .negSucc n => '-' :: groupDigits (ofNat (n + 1))

end Text

/-! ### Reading unsigned numbers -/

/-- The greatest unsigned number of 64 bits. -/
def maxUnsigned : Nat := 2 ^ 64 - 1

/-- The greatest signed number of 64 bits. -/
def maxSigned : Nat := 2 ^ 63 - 1

/-- Why a text is not an unsigned number. -/
inductive NumberFault where
  | empty
  | invalidDigit
  | tooLarge
  deriving DecidableEq, Repr

/-- The wording of a fault. -/
def NumberFault.message : NumberFault → Text
  | .empty => "cannot parse integer from empty string".toList
  | .invalidDigit => "invalid digit found in string".toList
  | .tooLarge => "number too large to fit in target type".toList

/-- The value of a decimal digit. -/
def digitValue (c : Char) : Nat :=
  c.toNat - '0'.toNat

/-- Reads digits after a number already read; the first fault from the left is reported. -/
def readDigits (bound : Nat) : Nat → Text → Except NumberFault Nat
  | n, [] => .ok n
  | n, c :: cs =>
    if c.isDigit then
      let m := n * 10 + digitValue c
      if m ≤ bound then readDigits bound m cs else .error .tooLarge
    else .error .invalidDigit

/-- Reads an unsigned number up to `bound`, which one plus sign may precede. -/
def readUnsigned (bound : Nat) : Text → Except NumberFault Nat
  | [] => .error .empty
  | ['+'] => .error .invalidDigit
  | '+' :: cs => readDigits bound 0 cs
  | cs => readDigits bound 0 cs

/-! ### Magnitude -/

/-- The least number that rounds to infinity: half a step above the greatest finite number. -/
def infinityThreshold : Nat := 2 ^ 1024 - 2 ^ 970

/-- The number `m * 10 ^ e` rounds to infinity.  The two outer cases only keep the numbers
compared small: with an exponent above 400 every positive number is too large, and with more
places than digits it is below one. -/
def roundsToInfinity (m : Nat) (e : Int) : Bool :=
  if m = 0 then false
  else if 400 < e then true
  else if 0 ≤ e then infinityThreshold ≤ m * 10 ^ e.toNat
  else if (Nat.toDigits 10 m).length < (-e).toNat then false
  else infinityThreshold * 10 ^ (-e).toNat ≤ m

end CartTokens
