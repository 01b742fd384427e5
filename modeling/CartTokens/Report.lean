import CartTokens.Budget
import CartTokens.Path

/-!
# Reports

An entry is a named file with its tokens, and a report is a list of entries with the account of
a budget.  A report in print may show the name of the program and its version.
-/

namespace CartTokens

/-- The name of the program. -/
def programName : Text := "p8tokens".toList

/-- The version of the program. -/
def version : Text := "0.3.0".toList

/-- A counted file. -/
structure Entry where
  name : Text
  tokens : Nat
  path : Option Path
  deriving DecidableEq, Repr

/-- The entry of a text that is in no file. -/
def Entry.ofName (name : Text) (tokens : Nat) : Entry := ⟨name, tokens, none⟩

/-- The entry of a file. -/
def Entry.ofPath (path : Path) (tokens : Nat) : Entry := ⟨path.fileName, tokens, some path⟩

/-- The account of a budget. -/
structure Report where
  total : Nat
  limit : Nat
  remaining : Int
  files : List Entry
  deriving DecidableEq, Repr

/-- A number brought into the range of signed numbers of 64 bits. -/
def saturate (n : Int) : Int :=
  max (-maxSigned - 1) (min n maxSigned)

namespace Report

/-- The report on the files. -/
def ofEntries (files : List Entry) (budget : Budget) : Report :=
  let total := (files.map Entry.tokens).sum
  ⟨total, budget.limit, budget.remaining total, files⟩

/-- More tokens than the budget allows. -/
def isOverBudget (r : Report) : Bool :=
  r.remaining < 0

/-- What remains in percent of the limit, rounded down. -/
def remainingPercent (r : Report) : Int :=
  saturate (r.remaining * 100) / max 1 (min r.limit maxSigned : Nat)

end Report

end CartTokens
