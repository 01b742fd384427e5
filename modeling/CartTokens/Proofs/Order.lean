import CartTokens.Format
import CartTokens.Proofs.StableSort
import Mathlib.Data.List.Nodup

/-!
# The order of entries

Criteria compare entries like the words of a dictionary: the first criterion on which two entries
differ puts one before the other (`SortSpec.Less`), and entries that differ on none agree
(`SortSpec.Agree`).  Comparing by criteria says which of the two it is (`SortSpec.order_eq_lt_iff`,
`SortSpec.order_eq_eq_iff`), for any criteria, also repeated or contrary ones.

So entries are put in order by a stable sort (`SortSpec.stableSort_sort`), sorting by two lists of
criteria is sorting by the second and then by the first (`SortSpec.sort_append`), and entries with
names of their own come out the same however they stood before, if names are compared
(`SortSpec.sort_eq_of_perm`).
-/

namespace CartTokens

/-! ### Keys and criteria -/

theorem compare_char_eq_lt_iff (c d : Char) :
  compare c d = .lt ↔ c.toNat < d.toNat
  := compareOfLessAndEq_eq_lt

/-- Texts come in the order of a dictionary, characters in that of their codes. -/
theorem compare_text_eq_lt_iff (s t : Text) :
  compare s t = .lt ↔ List.Lex (fun c d => c.toNat < d.toNat) s t
  := by
  induction s generalizing t with
  | nil =>
    cases t with
    | nil => simp
    | cons d t => simp
  | cons c s ih =>
    cases t with
    | nil => simp
    | cons d t =>
      rw [List.compare_cons_cons, Ordering.then_eq_lt, compare_char_eq_lt_iff,
        Std.compare_eq_iff_eq, ih, List.cons_lex_cons_iff]

namespace SortKey

/-- By the key, the first entry comes before the second. -/
def Less : SortKey → Entry → Entry → Prop
  | .name, a, b => List.Lex (fun c d => c.toNat < d.toNat) a.name b.name
  | .tokens, a, b => a.tokens < b.tokens

/-- The entries are the same by the key. -/
def Agree : SortKey → Entry → Entry → Prop
  | .name, a, b => a.name = b.name
  | .tokens, a, b => a.tokens = b.tokens

instance (k : SortKey) (a b : Entry) : Decidable (k.Agree a b) :=
  match k with
  | .name => inferInstanceAs (Decidable (a.name = b.name))
  | .tokens => inferInstanceAs (Decidable (a.tokens = b.tokens))

theorem order_eq_lt_iff (k : SortKey) (a b : Entry) :
  k.order a b = .lt ↔ k.Less a b
  := by
  cases k with
  | name => apply compare_text_eq_lt_iff
  | tokens => apply Nat.compare_eq_lt

theorem order_eq_eq_iff (k : SortKey) (a b : Entry) :
  k.order a b = .eq ↔ k.Agree a b
  := by
  cases k with
  | name => apply Std.compare_eq_iff_eq
  | tokens => apply Nat.compare_eq_eq

instance (k : SortKey) : Std.TransCmp k.order :=
  match k with
  | .name => inferInstanceAs (Std.TransCmp (compareOn Entry.name))
  | .tokens => inferInstanceAs (Std.TransCmp (compareOn Entry.tokens))

end SortKey

namespace Criterion

/-- By the criterion, the first entry comes before the second. -/
def Less (c : Criterion) (a b : Entry) : Prop :=
  if c.descending then c.key.Less b a else c.key.Less a b

/-- A descending key compares the entries the other way round. -/
theorem order_eq (c : Criterion) :
  c.order = if c.descending then fun a b => c.key.order b a else c.key.order
  := by
  funext a b
  rw [order]
  split
  · apply Std.OrientedCmp.eq_swap.symm
  · rfl

theorem order_eq_lt_iff (c : Criterion) (a b : Entry) :
  c.order a b = .lt ↔ c.Less a b
  := by
  rw [order_eq, Less]
  split <;> apply SortKey.order_eq_lt_iff

theorem order_eq_eq_iff (c : Criterion) (a b : Entry) :
  c.order a b = .eq ↔ c.key.Agree a b
  := by
  rw [order, ← SortKey.order_eq_eq_iff]
  split
  · apply Ordering.swap_eq_eq
  · rfl

instance (c : Criterion) : Std.TransCmp c.order := by
  rw [order_eq]
  split
  · apply Std.TransCmp.opposite
  · infer_instance

end Criterion

namespace SortSpec

/-! ### Lists of criteria -/

/-- The first criterion on which the entries differ puts the first before the second. -/
def Less (spec : SortSpec) (a b : Entry) : Prop :=
  ∃ (front : List Criterion) (c : Criterion) (back : List Criterion),
    spec = front ++ c :: back ∧ (∀ d ∈ front, d.key.Agree a b) ∧ c.Less a b

/-- The entries differ on no criterion. -/
def Agree (spec : SortSpec) (a b : Entry) : Prop :=
  ∀ c ∈ spec, c.key.Agree a b

instance (spec : SortSpec) (a b : Entry) : Decidable (spec.Agree a b) :=
  inferInstanceAs (Decidable (∀ c ∈ spec, c.key.Agree a b))

theorem order_cons (c : Criterion) (spec : SortSpec) (a b : Entry) :
  order (c :: spec) a b = (c.order a b).then (order spec a b)
  := rfl

theorem order_append (front back : SortSpec) (a b : Entry) :
  order (front ++ back) a b = (order front a b).then (order back a b)
  := by
  induction front with
  | nil => rfl
  | cons c front ih => rw [List.cons_append, order_cons, order_cons, ih, Ordering.then_assoc]

theorem order_eq_eq_iff (spec : SortSpec) (a b : Entry) :
  order spec a b = .eq ↔ spec.Agree a b
  := by
  induction spec with
  | nil => simp [order, Agree]
  | cons c spec ih =>
    rw [order_cons, Ordering.then_eq_eq, Criterion.order_eq_eq_iff, ih, Agree, Agree,
      List.forall_mem_cons]

theorem less_cons_iff (c : Criterion) (spec : SortSpec) (a b : Entry) :
  Less (c :: spec) a b ↔ c.Less a b ∨ c.key.Agree a b ∧ spec.Less a b
  := by
  constructor
  · rintro ⟨front, d, back, hspec, hfront, hless⟩
    cases front with
    | nil =>
      obtain ⟨rfl, -⟩ := List.cons.inj hspec
      exact .inl hless
    | cons e front =>
      obtain ⟨rfl, hrest⟩ := List.cons.inj hspec
      rw [List.forall_mem_cons] at hfront
      exact .inr ⟨hfront.1, front, d, back, hrest, hfront.2, hless⟩
  · rintro (hless | ⟨hagree, front, d, back, rfl, hfront, hless⟩)
    · use [], c, spec, rfl, List.forall_mem_nil _
    · use c :: front, d, back, rfl, List.forall_mem_cons.mpr ⟨hagree, hfront⟩

theorem order_eq_lt_iff (spec : SortSpec) (a b : Entry) :
  order spec a b = .lt ↔ spec.Less a b
  := by
  induction spec with
  | nil => simp [order, Less]
  | cons c spec ih =>
    rw [order_cons, Ordering.then_eq_lt, Criterion.order_eq_lt_iff, Criterion.order_eq_eq_iff, ih,
      less_cons_iff]

theorem isLE_order_iff (spec : SortSpec) (a b : Entry) :
  (order spec a b).isLE ↔ spec.Less a b ∨ spec.Agree a b
  := by
  rw [Ordering.isLE_iff_eq_lt_or_eq_eq, order_eq_lt_iff, order_eq_eq_iff]

instance (spec : SortSpec) : Std.TransCmp spec.order := by
  induction spec with
  | nil => exact { eq_swap := rfl, isLE_trans := fun _ _ => rfl }
  | cons c spec ih => exact inferInstanceAs (Std.TransCmp (compareLex c.order (order spec)))

theorem order_swap (spec : SortSpec) (a b : Entry) :
  order spec b a = (order spec a b).swap
  := Std.OrientedCmp.eq_swap

/-! ### Sorting -/

section

variable (spec : SortSpec)

/-- By the criteria, the first entry may stand before the second. -/
def precedes (a b : Entry) : Bool :=
  (order spec a b).isLE

theorem precedes_trans (a b c : Entry) (hab : spec.precedes a b) (hbc : spec.precedes b c) :
  spec.precedes a c
  := Std.TransCmp.isLE_trans hab hbc

theorem precedes_total (a b : Entry) :
  spec.precedes a b || spec.precedes b a
  := by
  rw [precedes, precedes, order_swap spec a b]
  cases order spec a b <;> rfl

/-- Entries tie exactly if they differ on no criterion. -/
theorem ties_precedes (a b : Entry) :
  ties spec.precedes a b = decide (spec.Agree a b)
  := by
  rw [Bool.eq_iff_iff, decide_eq_true_iff, ties_iff, ← order_eq_eq_iff]
  constructor
  · rintro ⟨hab, hba⟩
    apply Std.OrientedCmp.isLE_antisymm hab hba
  · intro h
    rw [precedes, precedes, order_swap spec a b, h]
    exact ⟨rfl, rfl⟩

/-- Entries are put in order by a stable sort. -/
theorem stableSort_sort (files : List Entry) :
  StableSort spec.precedes files (spec.sort files)
  := stableSort_mergeSort spec.precedes_trans spec.precedes_total files

end

theorem precedes_append (front back : SortSpec) :
  precedes (front ++ back) = lexicographic front.precedes back.precedes
  := by
  funext a b
  rw [lexicographic, precedes, precedes, precedes, precedes, order_append,
    order_swap front a b]
  cases order front a b <;> rfl

/-- Sorting by two lists of criteria is sorting by the second and then by the first. -/
theorem sort_append (front back : SortSpec) (files : List Entry) :
  sort (front ++ back) files = front.sort (back.sort files)
  := by
  apply (stableSort_sort (front ++ back) files).unique (precedes_total (front ++ back))
  rw [precedes_append]
  apply (back.stableSort_sort files).lexicographic front.precedes_total
  apply front.stableSort_sort

/-- Without criteria nothing changes. -/
theorem sort_nil (files : List Entry) :
  sort [] files = files
  := List.mergeSort_of_pairwise (List.pairwise_of_forall fun _ _ => rfl)

/-- If names are compared, entries with names of their own come out the same however they
stood. -/
theorem sort_eq_of_perm {spec : SortSpec} (hkey : .name ∈ spec.map Criterion.key)
    {files files' : List Entry} (hnames : (files'.map Entry.name).Nodup)
    (h : files.Perm files') :
  spec.sort files = spec.sort files'
  := by
  have hsort := spec.stableSort_sort files
  have hsort' := spec.stableSort_sort files'
  apply List.Perm.eq_of_pairwise _ hsort.pairwise hsort'.pairwise
  · exact (hsort.perm.trans h).trans hsort'.perm.symm
  · intro a b ha hb hab hba
    have hagree : spec.Agree a b := by
      rw [← decide_eq_true_iff (p := spec.Agree a b), ← ties_precedes, ties_iff]
      use hab, hba
    obtain ⟨c, hc, hname⟩ := List.mem_map.mp hkey
    have hnamed := hagree c hc
    rw [hname] at hnamed
    apply List.inj_on_of_nodup_map hnames
    · rwa [← h.mem_iff, ← hsort.perm.mem_iff]
    · rwa [← hsort'.perm.mem_iff]
    · exact hnamed

/-- Sorting gives the same entries, so that none comes before another that the criteria put
first, and entries that agree on all criteria stand as they stood.  Sorting by two lists of
criteria is sorting by the second and then by the first, and without criteria nothing changes.
If names are compared and no two entries have the same name, a report is written in every format
the same way in whatever order its entries stand. -/
theorem sort_stable_lexicographic (spec : SortSpec) :
  (∀ files : List Entry,
      (spec.sort files).Perm files
        ∧ (spec.sort files).Pairwise (fun a b => spec.Less a b ∨ spec.Agree a b)
        ∧ ∀ e, (spec.sort files).filter (fun f => spec.Agree e f)
            = files.filter fun f => spec.Agree e f)
    ∧ (∀ (back : SortSpec) (files : List Entry),
        sort (spec ++ back) files = spec.sort (back.sort files))
    ∧ (∀ files : List Entry, sort [] files = files)
    ∧ (SortKey.name ∈ spec.map Criterion.key →
        ∀ (r : Report) (files : List Entry), (r.files.map Entry.name).Nodup →
          files.Perm r.files → ∀ format : OutputFormat,
            { r with files := files }.render format spec = r.render format spec)
  := by
  refine ⟨?_, sort_append spec, sort_nil, ?_⟩
  · intro files
    have hsort := spec.stableSort_sort files
    refine ⟨hsort.perm, hsort.pairwise.imp fun h => (spec.isLE_order_iff _ _).mp h, ?_⟩
    intro e
    have hties := hsort.filter_ties e
    rwa [funext (spec.ties_precedes e)] at hties
  · intro hkey r files hnames hperm format
    rw [Report.render, Report.render, Report.sorted, Report.sorted,
      sort_eq_of_perm hkey hnames hperm]

theorem sort_stable_lexicographic_two_files :
  SortKey.name ∈ [(⟨.tokens, true⟩ : Criterion), ⟨.name, false⟩].map Criterion.key
    ∧ ([.ofName "a.p8".toList 3, .ofName "b.p8".toList 3].map Entry.name).Nodup
    ∧ ∀ format : OutputFormat,
      Report.render ⟨6, 8192, 8186, [.ofName "b.p8".toList 3, .ofName "a.p8".toList 3]⟩ format
          [⟨.tokens, true⟩, ⟨.name, false⟩]
        = Report.render ⟨6, 8192, 8186, [.ofName "a.p8".toList 3, .ofName "b.p8".toList 3]⟩ format
          [⟨.tokens, true⟩, ⟨.name, false⟩]
  := by
  have hkey : SortKey.name ∈ [(⟨.tokens, true⟩ : Criterion), ⟨.name, false⟩].map Criterion.key := by
    decide
  have hnames : ([.ofName "a.p8".toList 3, .ofName "b.p8".toList 3].map Entry.name).Nodup := by
    decide
  refine ⟨hkey, hnames, ?_⟩
  apply (sort_stable_lexicographic _).2.2.2 hkey
    ⟨6, 8192, 8186, [.ofName "a.p8".toList 3, .ofName "b.p8".toList 3]⟩ _ hnames
  apply List.Perm.swap

end SortSpec

end CartTokens
