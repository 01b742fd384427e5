import CartTokens.Text.Decimal
import CartTokens.Vocabulary

/-!
# Budgets

A budget is a limit between one and the greatest signed number of 64 bits.  What remains of it
after a total is a signed number of 64 bits, so a greater total counts as the greatest such
number.
-/

namespace CartTokens

/-- A limit for tokens. -/
structure Budget where
  limit : Nat
  pos : 0 < limit
  le : limit ≤ maxSigned

/-- Why a number is no limit. -/
inductive BudgetFault where
  | zero
  | tooLarge (limit : Nat)
  deriving DecidableEq, Repr

/-- The wording of a fault. -/
def BudgetFault.message : BudgetFault → Text
  | .zero => "Token budget must be greater than zero".toList
  | .tooLarge limit =>
    "Token budget ".toList ++ Text.ofNat limit ++ " exceeds the supported maximum ".toList
      ++ Text.ofNat maxSigned

namespace Budget

/-- The budget with the given limit. -/
def ofNat (limit : Nat) : Except BudgetFault Budget :=
  if pos : 0 < limit then
    if le : limit ≤ maxSigned then .ok ⟨limit, pos, le⟩ else .error (.tooLarge limit)
  else .error .zero

/-- The budget of a cartridge. -/
def standard : Budget := ⟨tokenLimit, by decide, by decide⟩

instance : Inhabited Budget := ⟨standard⟩

/-- What remains of the budget after a total. -/
def remaining (b : Budget) (total : Nat) : Int :=
  b.limit - min total maxSigned

end Budget

end CartTokens
