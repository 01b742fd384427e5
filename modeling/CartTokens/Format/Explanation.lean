import CartTokens.Count
import CartTokens.Text.Decimal

/-!
# Explanations

The account of a cartridge as text: a row for each line of code with its number, what it costs
and its tokens, and the total.
-/

namespace CartTokens

namespace Explanation

/-- The tokens of a line that are shown: all of them, or those that cost something. -/
def shown (all : Bool) (a : Account) : List Token :=
  a.tokens.filter fun t => all || 0 < t.weight

/-- A token with the word for its kind. -/
def label (t : Token) : Text :=
  t.text ++ ['['] ++ t.kind.label ++ [']']

/-- The row of a line, if any of its tokens is shown. -/
def row (all : Bool) (a : Account) : Option Text :=
  if (shown all a).isEmpty then none
  else some (Text.alignRight 5 (Text.ofNat a.line) ++ [' ']
    ++ Text.alignRight 4 (Text.ofNat a.weight) ++ "  ".toList
    ++ Text.join [' '] ((shown all a).map label))

/-- What all lines cost together, shown or not. -/
def total (accounts : List Account) : Nat :=
  (accounts.map Account.weight).sum

/-- The account as text. -/
def render (accounts : List Account) (all : Bool) : Text :=
  Text.join ['\n']
    (accounts.filterMap (row all)
      ++ ["---".toList,
          Text.alignRight 10 (Text.ofNat (total accounts)) ++ "  TOTAL".toList])

end Explanation

end CartTokens
