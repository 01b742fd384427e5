import CartTokens.Report

/-!
# Markdown

A report as Markdown.  Entries without tokens are left out, of several entries with one name
the first that has tokens is shown, and the counts are aligned by dashes.
-/

namespace CartTokens

namespace Markdown

/-- The first entry of each name. -/
def firstOfName : List Entry → List Entry
  | [] => []
  | e :: es => e :: (firstOfName es).filter fun f => f.name != e.name

/-- The entries that get a row. -/
def shown (files : List Entry) : List Entry :=
  firstOfName (files.filter fun e => e.tokens != 0)

/-- The length of the longest name, or of the word `TOTAL` if that is longer. -/
def longest (files : List Entry) : Nat :=
  (files.map fun e => e.name.length).foldl max 5

/-- The least number of dashes in a row. -/
def minDashes : Nat := 2

/-- The number of dashes between a name and a count, for a longest name of length `n`. -/
def dashes (n : Nat) (name count : Text) : Nat :=
  max minDashes (n + 5 - (name.length + count.length))

/-- The row of an entry, for a longest name of length `n`. -/
def row (n : Nat) (e : Entry) : Text :=
  e.name ++ [' '] ++ List.replicate (dashes n e.name (Text.ofNat e.tokens)) '-' ++ [' ']
    ++ Text.ofNat e.tokens

/-- The rows of the report. -/
def rows (r : Report) : List Text :=
  (shown r.files).map (row (longest (shown r.files)))

/-- The line that fences the rows. -/
def fence : Text := "```".toList

/-- An unsigned number in groups of three, no greater than signed numbers can be. -/
def grouped (n : Nat) : Text :=
  Text.groupThousands (min n maxSigned : Nat)

/-- The report as Markdown. -/
def render (r : Report) : Text :=
  Text.join ['\n']
    (["**PICO-8 Token Usage**".toList, fence] ++ rows r
      ++ [fence, [], "\n---\n".toList,
          "**Total:** ".toList ++ grouped r.total ++ " / ".toList ++ grouped r.limit,
          "**Remaining:** ".toList ++ Text.groupThousands r.remaining ++ " (".toList
            ++ Text.ofInt r.remainingPercent ++ "%)".toList])

end Markdown

end CartTokens
