import CartTokens.Report

/-!
# Tables

A report as a table to be read on a terminal.
-/

namespace CartTokens

namespace Table

/-- The gap between the two columns. -/
def gap : Text := "     ".toList

/-- The lines above the entries. -/
def heading (limit : Nat) : List Text :=
  [programName ++ " v".toList ++ version ++ " · budget=".toList ++ Text.ofNat limit,
   [],
   "   TOKENS     FILE".toList,
   List.replicate 46 '-']

/-- The line of an entry; its count is not aligned. -/
def row (e : Entry) : Text :=
  Text.ofNat e.tokens ++ gap ++ e.name

/-- The lines below the entries. -/
def summary (r : Report) : List Text :=
  ["---".toList,
   Text.ofNat r.total ++ gap ++ "TOTAL (".toList ++ Text.ofNat r.files.length
     ++ " files)".toList,
   Text.alignRight 9 (Text.ofInt r.remaining) ++ gap ++ "REMAINING (".toList
     ++ Text.ofInt r.remainingPercent ++ "%)".toList]

/-- The lines that tell of a budget that does not hold. -/
def alarm (r : Report) : List Text :=
  if r.isOverBudget then
    [[], "[p8tokens] Over budget by ".toList ++ Text.ofNat r.remaining.natAbs
      ++ " tokens.".toList]
  else []

/-- The report as a table. -/
def render (r : Report) : Text :=
  Text.join ['\n'] (heading r.limit ++ r.files.map row ++ summary r ++ alarm r)

end Table

end CartTokens
