import Mathlib.Data.List.Perm.Basic

/-!
# Stable sorting

`StableSort le xs ys` says that `ys` is `xs` in the order `le` and that values which tie in this
order stand in `ys` as they stand in `xs`.  There is one such list at most (`StableSort.unique`),
and for an order in which any two values can be compared merging gives it
(`stableSort_mergeSort`).  Sorting by one order and then by another is sorting by the second
order and, where it leaves a tie, by the first (`StableSort.lexicographic`).
-/

namespace CartTokens

section

variable {α : Type} (le : α → α → Bool)

/-- Neither of the values comes strictly before the other. -/
def ties (a b : α) : Bool :=
  le a b && le b a

/-- The second list is the first one in order, and values that tie keep their order. -/
structure StableSort (xs ys : List α) : Prop where
  perm : ys.Perm xs
  pairwise : ys.Pairwise (le · ·)
  filter_ties : ∀ a, ys.filter (ties le a) = xs.filter (ties le a)

variable {le}

theorem ties_iff {a b : α} :
  ties le a b ↔ le a b ∧ le b a
  := by
  rw [ties, Bool.and_eq_true]

section

variable (total : ∀ a b, le a b || le b a)

include total

theorem ties_self (a : α) :
  ties le a a
  := by
  have h := total a a
  rw [Bool.or_self] at h
  exact ties_iff.mpr ⟨h, h⟩

theorem eq_of_filter_ties {ys zs : List α} (hperm : ys.Perm zs) (hys : ys.Pairwise (le · ·))
    (hzs : zs.Pairwise (le · ·))
    (h : ∀ a, ys.filter (ties le a) = zs.filter (ties le a)) :
  ys = zs
  := by
  induction ys generalizing zs with
  | nil => exact hperm.nil_eq
  | cons y ys ih =>
    cases zs with
    | nil => exact hperm.eq_nil
    | cons z zs =>
      rw [List.pairwise_cons] at hys hzs
      -- the first values are least in their lists, so they tie and head the same filtered list
      have hheads : y = z := by
        by_contra hne
        have hyz : le y z :=
          hys.1 z ((List.mem_cons.mp (hperm.mem_iff.mpr List.mem_cons_self)).resolve_left
            (Ne.symm hne))
        have hzy : le z y :=
          hzs.1 y ((List.mem_cons.mp (hperm.mem_iff.mp List.mem_cons_self)).resolve_left hne)
        have hfilter := h y
        rw [List.filter_cons_of_pos (ties_self total y),
          List.filter_cons_of_pos (ties_iff.mpr ⟨hyz, hzy⟩)] at hfilter
        exact hne (List.cons.inj hfilter).1
      subst hheads
      congr 1
      apply ih hperm.cons_inv hys.2 hzs.2
      intro a
      have hfilter := h a
      rw [List.filter_cons, List.filter_cons] at hfilter
      split at hfilter
      · exact (List.cons.inj hfilter).2
      · exact hfilter

namespace StableSort

variable {xs ys zs : List α}

/-- A list can be put in order in one way only. -/
theorem unique (h : StableSort le xs ys) (h' : StableSort le xs zs) :
  ys = zs
  := by
  apply eq_of_filter_ties total (h.perm.trans h'.perm.symm) h.pairwise h'.pairwise
  intro a
  rw [h.filter_ties, h'.filter_ties]

end StableSort

end

/-- Merging puts a list in order. -/
theorem stableSort_mergeSort (trans : ∀ a b c, le a b → le b c → le a c)
    (total : ∀ a b, le a b || le b a) (xs : List α) :
  StableSort le xs (xs.mergeSort le)
  where
  perm := List.mergeSort_perm xs le
  pairwise := List.pairwise_mergeSort trans total xs
  filter_ties := by
    intro a
    -- values that tie are in order as they stand, and merging keeps what is in order
    have hclass : (xs.filter (ties le a)).Pairwise (le · ·) := by
      apply List.pairwise_of_forall_mem_list
      intro b hb c hc
      have hba := (ties_iff.mp (List.mem_filter.mp hb).2).2
      have hac := (ties_iff.mp (List.mem_filter.mp hc).2).1
      apply trans b a c hba hac
    have hsublist : (xs.filter (ties le a)).Sublist ((xs.mergeSort le).filter (ties le a)) := by
      rw [← List.filter_eq_self.mpr fun b hb => (List.mem_filter.mp hb).2]
      apply List.Sublist.filter
      apply List.sublist_mergeSort trans total hclass List.filter_sublist
    symm
    apply hsublist.eq_of_length
    exact ((List.mergeSort_perm xs le).filter _).length_eq.symm

/-! ### Sorting twice -/

/-- The first order, and where it leaves a tie the second. -/
def lexicographic (le le' : α → α → Bool) (a b : α) : Bool :=
  le a b && (!le b a || le' a b)

theorem ties_lexicographic (le le' : α → α → Bool) (a b : α) :
  ties (lexicographic le le') a b = (ties le' a b && ties le a b)
  := by
  rw [ties, ties, ties, lexicographic, lexicographic]
  cases le a b <;> cases le b a <;> simp

/-- Sorting again by another order keeps the first order where the second leaves a tie. -/
theorem StableSort.lexicographic {le' : α → α → Bool} (total : ∀ a b, le a b || le b a)
    {xs ys zs : List α} (h' : StableSort le' xs ys) (h : StableSort le ys zs) :
  StableSort (CartTokens.lexicographic le le') xs zs
  where
  perm := h.perm.trans h'.perm
  pairwise := by
    rw [List.pairwise_iff_forall_sublist]
    intro a b hab
    have hle := List.pairwise_iff_forall_sublist.mp h.pairwise hab
    rw [CartTokens.lexicographic, hle, Bool.true_and, Bool.or_eq_true, Bool.not_eq_true',
      ← Bool.not_eq_true, or_iff_not_imp_left, not_not]
    intro hge
    apply List.pairwise_iff_forall_sublist.mp h'.pairwise
    -- values that tie stand in `zs` as they stand in `ys`
    have hpair : [a, b].filter (ties le a) = [a, b] := by
      rw [List.filter_cons_of_pos (ties_self total a),
        List.filter_cons_of_pos (ties_iff.mpr ⟨hle, hge⟩), List.filter_nil]
    have hties := hab.filter (ties le a)
    rw [hpair, h.filter_ties] at hties
    apply hties.trans List.filter_sublist
  filter_ties := by
    intro a
    have hties : ties (CartTokens.lexicographic le le') a = fun b => ties le' a b && ties le a b :=
      funext (ties_lexicographic le le' a)
    rw [hties, ← List.filter_filter, h.filter_ties, List.filter_comm, h'.filter_ties,
      List.filter_comm, List.filter_filter]

end

end CartTokens
