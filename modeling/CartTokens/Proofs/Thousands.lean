import CartTokens.Text.Decimal
import Mathlib.Data.List.Basic

/-!
# Digits in groups of three

A comma is put wherever the number of digits that follow is a multiple of three.  So the digits of
a number are a group of one to three of them and then groups of a comma and three digits, and
without the commas they are the digits of the number (`Text.groupThousands_groups`).
-/

namespace CartTokens

namespace Text

theorem ofInt_eq_toString (n : Int) :
  ofInt n = (toString n).toList
  := by
  rw [Int.toString_eq_repr]
  cases n with
  | ofNat n => rw [Int.repr, Nat.repr, String.toList_ofList, ofInt, ofNat]
  | negSucc n =>
    rw [Int.repr, Nat.repr, String.toList_append, String.toList_ofList, String.toList_ofList]
    rfl

/-! ### Commas -/

theorem filter_groupDigits {ds : Text} (h : ',' ∉ ds) :
  (groupDigits ds).filter (· != ',') = ds
  := by
  fun_induction groupDigits ds with
  | case1 => rfl
  | case2 d =>
    rw [List.mem_singleton] at h
    rw [List.filter_singleton, bne_iff_ne.mpr (Ne.symm h), cond_true]
  | case3 d ds _ _ ih =>
    rw [List.mem_cons, not_or] at h
    rw [List.filter_cons, if_pos (bne_iff_ne.mpr (Ne.symm h.1)),
      List.filter_cons_of_neg (by decide), ih h.2]
  | case4 d ds _ _ ih =>
    rw [List.mem_cons, not_or] at h
    rw [List.filter_cons, if_pos (bne_iff_ne.mpr (Ne.symm h.1)), ih h.2]

theorem comma_notMem_ofNat (n : Nat) :
  ',' ∉ ofNat n
  := by
  intro hcomma
  exact absurd (isDigit_of_mem_ofNat hcomma) (by decide)

/-- Without its commas a number in groups is the number in decimal. -/
theorem filter_groupThousands (n : Int) :
  (groupThousands n).filter (· != ',') = ofInt n
  := by
  cases n with
  | ofNat n => apply filter_groupDigits (comma_notMem_ofNat n)
  | negSucc n =>
    rw [groupThousands, List.filter_cons_of_pos (by decide),
      filter_groupDigits (comma_notMem_ofNat (n + 1)), ofInt]

/-! ### Groups -/

/-- The digits in groups: one to three of them, and then groups of three. -/
structure Grouping (ds first : Text) (groups : List Text) : Prop where
  flatten_eq : first ++ groups.flatten = ds
  length_pos : 0 < first.length
  length_le : first.length ≤ 3
  length_group : ∀ group ∈ groups, group.length = 3

theorem grouping_singleton (d : Char) :
  Grouping [d] [d] []
  := by
  constructor
  case flatten_eq => rfl
  case length_pos => apply Nat.one_pos
  case length_le => apply Nat.le_add_left 1 2
  case length_group => exact fun group hgroup => absurd hgroup List.not_mem_nil

section

variable {ds first : Text} {groups : List Text} (h : Grouping ds first groups)

include h

theorem Grouping.length_eq :
  ds.length = first.length + groups.length * 3
  := by
  rw [← h.flatten_eq, List.length_append, List.length_flatten, List.map_congr_left h.length_group,
    List.map_const', List.sum_replicate_nat]

/-- One digit more makes a short first group longer. -/
theorem Grouping.cons_short (hshort : ds.length % 3 ≠ 0) (d : Char) :
  Grouping (d :: ds) (d :: first) groups
  := by
  have hlength := h.length_eq
  have hle := h.length_le
  constructor
  case flatten_eq => rw [List.cons_append, h.flatten_eq]
  case length_pos => apply Nat.succ_pos
  case length_le =>
    rw [List.length_cons]
    omega
  case length_group => exact h.length_group

/-- One digit more is a group of its own if the first group is full. -/
theorem Grouping.cons_full (hfull : ds.length % 3 = 0) (d : Char) :
  Grouping (d :: ds) [d] (first :: groups)
  := by
  have hlength := h.length_eq
  have hpos := h.length_pos
  have hle := h.length_le
  constructor
  case flatten_eq => rw [List.flatten_cons, h.flatten_eq, List.singleton_append]
  case length_pos => apply Nat.one_pos
  case length_le => apply Nat.le_add_left 1 2
  case length_group =>
    rw [List.forall_mem_cons]
    use by omega, h.length_group

end

/-- The commas stand before the groups of three. -/
theorem exists_grouping_of_groupDigits {ds : Text} (hne : ds ≠ []) :
  ∃ first groups, Grouping ds first groups
    ∧ groupDigits ds = first ++ groups.flatMap (',' :: ·)
  := by
  fun_induction groupDigits ds with
  | case1 => exact absurd rfl hne
  | case2 d => exact ⟨[d], [], grouping_singleton d, rfl⟩
  | case3 d ds hds hfull ih =>
    obtain ⟨first, groups, hgroups, heq⟩ := ih hds
    use [d], first :: groups, hgroups.cons_full hfull d
    rw [heq]
    rfl
  | case4 d ds hds hshort ih =>
    obtain ⟨first, groups, hgroups, heq⟩ := ih hds
    use d :: first, groups, hgroups.cons_short hshort d
    rw [heq, List.cons_append]

/-- Digits in print: a group of one to three of them, then groups of a comma and three digits. -/
def InThrees (t : Text) : Prop :=
  ∃ (first : Text) (groups : List Text), t = first ++ groups.flatMap (',' :: ·)
    ∧ 1 ≤ first.length ∧ first.length ≤ 3 ∧ (∀ group ∈ groups, group.length = 3)
    ∧ ∀ group ∈ first :: groups, ∀ c ∈ group, c.isDigit

theorem inThrees_groupDigits (n : Nat) :
  InThrees (groupDigits (ofNat n))
  := by
  obtain ⟨first, groups, hgroups, heq⟩ := exists_grouping_of_groupDigits (ofNat_ne_nil n)
  use first, groups, heq, hgroups.length_pos, hgroups.length_le, hgroups.length_group
  intro group hgroup c hc
  apply isDigit_of_mem_ofNat
  rw [← hgroups.flatten_eq, ← List.flatten_cons]
  exact List.mem_flatten_of_mem hgroup hc

/-- A number in groups is its decimal text without the commas, and after the sign of a negative one
it is one to three digits and then groups of a comma and three digits. -/
theorem groupThousands_groups (n : Int) :
  (groupThousands n).filter (· != ',') = (toString n).toList
    ∧ ∃ digits, InThrees digits
      ∧ groupThousands n = (if n < 0 then ['-'] else []) ++ digits
  := by
  rw [filter_groupThousands, ofInt_eq_toString]
  use rfl
  cases n with
  | ofNat n =>
    use groupDigits (ofNat n), inThrees_groupDigits n
    rw [if_neg (by simp)]
    rfl
  | negSucc n =>
    use groupDigits (ofNat (n + 1)), inThrees_groupDigits (n + 1)
    rw [if_pos (Int.negSucc_lt_zero n)]
    rfl

example : groupThousands (-2 ^ 63) = "-9,223,372,036,854,775,808".toList := by
  decide +kernel

end Text

end CartTokens
