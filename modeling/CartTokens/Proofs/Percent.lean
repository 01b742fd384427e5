import CartTokens.Report
import Mathlib.Data.Rat.Floor

/-!
# What remains in percent

What remains of a limit in percent is found with signed numbers of 64 bits: the limit is brought
into their range, the product saturates, and the division gives no number for a divisor of zero or
a quotient beyond the range (`Signed.percent?`).  It always gives a number, and that number is the
percentage of a report (`Signed.percent?_eq_some`).

The percentage has the sign of what remains and grows with it, and where nothing is brought into
range it is the exact one rounded down (`Report.remainingPercent_eq_floor`).
-/

namespace CartTokens

/-! ### Signed numbers -/

/-- A signed number of 64 bits. -/
structure Signed where
  value : Int
  le_value : -(maxSigned : Int) - 1 ≤ value
  value_le : value ≤ maxSigned

namespace Signed

/-- The integer, if it is in range. -/
def ofInt? (n : Int) : Option Signed :=
  if h : -(maxSigned : Int) - 1 ≤ n ∧ n ≤ maxSigned then some ⟨n, h.1, h.2⟩ else none

/-- The least signed number. -/
def least : Signed := ⟨-(maxSigned : Int) - 1, by decide, by decide⟩

/-- The greatest signed number. -/
def greatest : Signed := ⟨maxSigned, by decide, by decide⟩

/-- The product; one beyond the range is the bound that it passes. -/
def saturatingMul (a b : Signed) : Signed :=
  (ofInt? (a.value * b.value)).getD (if a.value * b.value < 0 then least else greatest)

/-- The quotient that leaves no negative rest, if there is one in range. -/
def divide? (a b : Signed) : Option Signed :=
  if b.value = 0 then none else ofInt? (a.value / b.value)

/-- The number, or one if that is greater. -/
def atLeastOne (a : Signed) : Signed :=
  if 1 ≤ a.value then a else ⟨1, by decide, by decide⟩

/-- What remains in percent of a limit, if no operation fails. -/
def percent? (limit : Nat) (remaining : Signed) : Option Signed :=
  divide? (remaining.saturatingMul ⟨100, by decide, by decide⟩)
    ((ofInt? limit).getD greatest).atLeastOne

theorem value_getD_ofInt? (n : Int) (other : Signed) :
  ((ofInt? n).getD other).value
    = if -(maxSigned : Int) - 1 ≤ n ∧ n ≤ maxSigned then n else other.value
  := by
  rw [ofInt?]
  split <;> rfl

theorem value_saturatingMul (a b : Signed) :
  (a.saturatingMul b).value = saturate (a.value * b.value)
  := by
  rw [saturatingMul, value_getD_ofInt?, saturate]
  split
  · omega
  · split <;> simp only [least, greatest] <;> omega

theorem value_atLeastOne (a : Signed) :
  a.atLeastOne.value = max 1 a.value
  := by
  rw [atLeastOne]
  split
  · omega
  · dsimp only
    omega

/-- A limit is brought into range from above and then from below. -/
theorem value_divisor (limit : Nat) :
  ((ofInt? limit).getD greatest).atLeastOne.value = (max 1 (min limit maxSigned) : Nat)
  := by
  have hgreatest : greatest.value = maxSigned := rfl
  rw [value_atLeastOne, value_getD_ofInt?, hgreatest]
  split <;> omega

/-- Dividing by a positive number does not leave the range. -/
theorem divide?_of_pos (a : Signed) {b : Signed} (hb : 0 < b.value) :
  (a.divide? b).map value = some (a.value / b.value)
  := by
  have hlow : -(maxSigned : Int) - 1 ≤ a.value / b.value := by
    apply Int.le_ediv_of_mul_le hb
    nlinarith [a.le_value]
  have hhigh : a.value / b.value < maxSigned + 1 := by
    apply Int.ediv_lt_of_lt_mul hb
    nlinarith [a.value_le]
  rw [divide?, if_neg hb.ne', ofInt?, dif_pos ⟨hlow, Int.lt_add_one_iff.mp hhigh⟩]
  rfl

/-- No operation fails, and the result is the percentage of a report. -/
theorem percent?_eq_some (r : Report) (remaining : Signed) (h : remaining.value = r.remaining) :
  (percent? r.limit remaining).map value = some r.remainingPercent
  := by
  rw [percent?, divide?_of_pos]
  · rw [value_saturatingMul, value_divisor, h, Report.remainingPercent]
  · rw [value_divisor]
    omega

end Signed

/-! ### The percentage of a report -/

theorem saturate_neg_iff (n : Int) :
  saturate n < 0 ↔ n < 0
  := by
  rw [saturate]
  omega

theorem saturate_mono {m n : Int} (h : m ≤ n) :
  saturate m ≤ saturate n
  := by
  rw [saturate, saturate]
  omega

theorem saturate_eq_self {n : Int} (hlow : -(maxSigned : Int) - 1 ≤ n) (hhigh : n ≤ maxSigned) :
  saturate n = n
  := by
  rw [saturate]
  omega

namespace Report

theorem remainingPercent_neg_iff (r : Report) :
  r.remainingPercent < 0 ↔ r.remaining < 0
  := by
  rw [remainingPercent, ← not_le, Int.ediv_nonneg_iff_of_pos (by omega), not_le, saturate_neg_iff]
  omega

theorem remainingPercent_mono {r s : Report} (hlimit : r.limit = s.limit)
    (h : r.remaining ≤ s.remaining) :
  r.remainingPercent ≤ s.remainingPercent
  := by
  rw [remainingPercent, remainingPercent, hlimit]
  apply Int.ediv_le_ediv (by omega)
  apply saturate_mono
  omega

theorem remainingPercent_eq_floor {r : Report} (hpos : 1 ≤ r.limit) (hle : r.limit ≤ maxSigned)
    (hlow : -(maxSigned : Int) - 1 ≤ 100 * r.remaining) (hhigh : 100 * r.remaining ≤ maxSigned) :
  r.remainingPercent = ⌊(100 * r.remaining : ℚ) / r.limit⌋
  := by
  have hcast : (100 * r.remaining : ℚ) = ((100 * r.remaining : Int) : ℚ) := by push_cast; rfl
  rw [hcast, Rat.floor_intCast_div_natCast, remainingPercent, Int.mul_comm,
    saturate_eq_self hlow hhigh, Nat.min_eq_left hle, Nat.max_eq_right hpos]

/-- What remains in percent is found without a failing operation, for every limit and every
signed number that remains.  It is negative exactly if that number is, it grows with that number
if the limit stays the same, and if the limit is a positive signed number and the product is a
signed number it is the exact percentage rounded down. -/
theorem remainingPercent_exact (r : Report) (hlow : -(maxSigned : Int) - 1 ≤ r.remaining)
    (hhigh : r.remaining ≤ maxSigned) :
  (Signed.percent? r.limit ⟨r.remaining, hlow, hhigh⟩).map Signed.value = some r.remainingPercent
    ∧ (r.remainingPercent < 0 ↔ r.remaining < 0)
    ∧ (∀ s : Report, s.limit = r.limit → r.remaining ≤ s.remaining →
        r.remainingPercent ≤ s.remainingPercent)
    ∧ (1 ≤ r.limit → r.limit ≤ maxSigned → -(maxSigned : Int) - 1 ≤ 100 * r.remaining →
        100 * r.remaining ≤ maxSigned →
        r.remainingPercent = ⌊(100 * r.remaining : ℚ) / r.limit⌋)
  := by
  use Signed.percent?_eq_some r _ rfl, remainingPercent_neg_iff r
  constructor
  · intro s hlimit h
    apply remainingPercent_mono hlimit.symm h
  · apply remainingPercent_eq_floor

/-- A limit of three is exceeded by one: minus a third is rounded down to minus 34 percent. -/
theorem remainingPercent_exact_exceeded :
  (Signed.percent? 3 ⟨-1, by decide, by decide⟩).map Signed.value = some (-34)
    ∧ -34 = ⌊(100 * (-1 : Int) : ℚ) / (3 : Nat)⌋
    ∧ remainingPercent ⟨4, 3, -1, []⟩ ≤ remainingPercent ⟨3, 3, 0, []⟩
  := by
  have hexact := remainingPercent_exact ⟨4, 3, -1, []⟩ (by decide) (by decide)
  use hexact.1, hexact.2.2.2 (by decide) (by decide) (by decide) (by decide)
  apply hexact.2.2.1 ⟨3, 3, 0, []⟩ rfl (by decide)

end Report

end CartTokens
