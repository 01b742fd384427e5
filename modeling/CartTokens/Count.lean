import CartTokens.Cartridge
import CartTokens.Comment
import CartTokens.Line
import CartTokens.Text.Utf8

/-!
# Counting

What a cartridge costs, and the account of it line by line.
-/

namespace CartTokens

/-- The lines of code of a cartridge, its block comments taken out. -/
def codeLines (t : Text) : List Text :=
  Text.lines (stripComments (Cartridge.code t))

/-- What a cartridge costs. -/
def countText (t : Text) : Nat :=
  if Cartridge.isGraphicsOnly t then 0 else ((codeLines t).map Line.count).sum

/-- What a cartridge given as bytes costs. -/
def countBytes (b : Bytes) : Nat :=
  countText (Utf8.decode b)

/-- A line of the account: the number of the line of code and its tokens. -/
structure Account where
  line : Nat
  tokens : List Token
  deriving DecidableEq, Repr

/-- What the line costs. -/
def Account.weight (a : Account) : Nat :=
  (a.tokens.map Token.weight).sum

/-- The lines of code that have tokens, numbered from one. -/
def explainText (t : Text) : List Account :=
  if Cartridge.isGraphicsOnly t then []
  else
    (((codeLines t).zipIdx 1).map fun (line, n) => ⟨n, Line.tokens line⟩).filter
      fun a => !a.tokens.isEmpty

end CartTokens
