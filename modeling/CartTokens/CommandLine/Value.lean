import CartTokens.Text.Decimal

/-!
# Values on the command line

Numbers within bounds, and extensions brought to their usual form.
-/

namespace CartTokens

/-- Why a number is refused. -/
inductive NumberRefusal where
  | invalid (text : Text) (fault : NumberFault)
  | tooSmall (least : Nat)
  | tooLarge (greatest : Nat)
  deriving DecidableEq, Repr

/-- The wording of a refusal. -/
def NumberRefusal.message : NumberRefusal → Text
  | .invalid text fault =>
    "invalid number '".toList ++ text ++ "': ".toList ++ fault.message
  | .tooSmall least => "value must be at least ".toList ++ Text.ofNat least
  | .tooLarge greatest => "value must be at most ".toList ++ Text.ofNat greatest

/-- Reads a number between bounds; without an upper one it only has to fit into 64 bits. -/
def readNumber (least : Nat) (greatest : Option Nat) (t : Text) : Except NumberRefusal Nat :=
  match readUnsigned maxUnsigned t with
  | .error fault => .error (.invalid t fault)
  | .ok n =>
    if n < least then .error (.tooSmall least)
    else
      match greatest with
      | some g => if g < n then .error (.tooLarge g) else .ok n
      | none => .ok n

/-- Reads a positive number. -/
def readPositive (t : Text) : Except NumberRefusal Nat :=
  readNumber 1 none t

/-- The greatest number of threads. -/
def maxThreads : Nat := 512

/-- Reads a number of threads. -/
def readThreads (t : Text) : Except NumberRefusal Nat :=
  readNumber 1 (some maxThreads) t

/-- A text in which no extension is left. -/
structure EmptyExtension where
  text : Text
  deriving DecidableEq, Repr

/-- The wording for a text without an extension. -/
def EmptyExtension.message (e : EmptyExtension) : Text :=
  "empty extension: '".toList ++ e.text ++ "'".toList

/-- Reads an extension: without blanks around it, without the dots before it, in lower case. -/
def readExtension (t : Text) : Except EmptyExtension Text :=
  match (Text.trim t).dropWhile (· == '.') with
  | [] => .error ⟨t⟩
  | c :: cs => .ok (Text.lower (c :: cs))

end CartTokens
