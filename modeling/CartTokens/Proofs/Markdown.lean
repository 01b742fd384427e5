import CartTokens.Proofs.Order
import Mathlib.Data.List.Forall2
import Mathlib.Data.List.Induction
import Mathlib.Order.Bounds.Defs

/-!
# The rows of a Markdown report

An entry of a list leads if it has tokens and no entry of its name before it has
(`Markdown.Leads`).  A report in Markdown has a row for each entry that leads, in order, and no
other (`Markdown.lists_shown`).  A row has dashes up to a column behind the longest name, and two of
them where the name and the count reach too far (`Markdown.length_row`).  If no two entries have the
same name the rows show all tokens there are (`Markdown.sum_shown`).
-/

namespace CartTokens

namespace Markdown

open Text

/-! ### The entries that get a row -/

/-- The entry at the position has tokens, and no entry with tokens before it has its name. -/
def Leads (files : List Entry) (i : Nat) : Prop :=
  ∃ e, files[i]? = some e ∧ e.tokens ≠ 0 ∧ ∀ f ∈ files.take i, f.tokens ≠ 0 → f.name ≠ e.name

/-- The second list holds the entries of the first that lead, in their order. -/
def Lists (files listed : List Entry) : Prop :=
  ∃ positions : List Nat, positions.Pairwise (· < ·)
    ∧ (∀ i, i ∈ positions ↔ Leads files i)
    ∧ positions.map (files[·]?) = listed.map some

theorem Leads.lt_length {files : List Entry} {i : Nat} (h : Leads files i) :
  i < files.length
  := by
  obtain ⟨e, he, -⟩ := h
  obtain ⟨hi, -⟩ := List.getElem?_eq_some_iff.mp he
  apply hi

/-- Which positions lead does not depend on what comes behind. -/
theorem leads_append_iff {files : List Entry} {i : Nat} (hi : i < files.length)
    (more : List Entry) :
  Leads (files ++ more) i ↔ Leads files i
  := by
  rw [Leads, Leads, List.getElem?_append_left hi, List.take_append_of_le_length (Nat.le_of_lt hi)]

theorem leads_concat_iff (files : List Entry) (e : Entry) :
  Leads (files ++ [e]) files.length
    ↔ e.tokens ≠ 0 ∧ ∀ f ∈ files, f.tokens ≠ 0 → f.name ≠ e.name
  := by
  rw [Leads, List.getElem?_concat_length, List.take_left]
  simp

/-- An entry is the first of its name if no entry before it has that name. -/
theorem firstOfName_concat (files : List Entry) (e : Entry) :
  firstOfName (files ++ [e])
    = firstOfName files ++ if files.any (·.name == e.name) then [] else [e]
  := by
  induction files with
  | nil => rfl
  | cons f files ih =>
    rw [List.cons_append, firstOfName, firstOfName, ih, List.filter_append, List.cons_append,
      List.any_cons]
    congr 2
    by_cases hname : f.name = e.name
    · rw [beq_iff_eq.mpr hname, Bool.true_or, if_pos rfl]
      split <;> simp [hname]
    · rw [beq_eq_false_iff_ne.mpr hname, Bool.false_or]
      split <;> simp [Ne.symm hname]

section

variable {files : List Entry} {e : Entry}

/-- One more entry gets a row if it leads. -/
theorem shown_concat_of_leads (h : Leads (files ++ [e]) files.length) :
  shown (files ++ [e]) = shown files ++ [e]
  := by
  rw [leads_concat_iff] at h
  obtain ⟨htokens, hbefore⟩ := h
  rw [shown, List.filter_append, List.filter_cons_of_pos (by simpa using htokens), List.filter_nil,
    firstOfName_concat, if_neg, shown]
  simpa using hbefore

/-- One more entry gets no row if it does not lead. -/
theorem shown_concat_of_not_leads (h : ¬ Leads (files ++ [e]) files.length) :
  shown (files ++ [e]) = shown files
  := by
  rw [leads_concat_iff, not_and] at h
  rw [shown, List.filter_append]
  by_cases htokens : e.tokens = 0
  · rw [List.filter_cons_of_neg (by simpa using htokens), List.filter_nil, List.append_nil, shown]
  · have hbefore := h htokens
    rw [List.filter_cons_of_pos (by simpa using htokens), List.filter_nil, firstOfName_concat,
      if_pos, List.append_nil, shown]
    simpa using hbefore

end

/-- One more entry leads or not, and the others lead as before. -/
theorem leads_concat_cases (files : List Entry) (e : Entry) (i : Nat) :
  Leads (files ++ [e]) i
    ↔ Leads files i ∨ i = files.length ∧ Leads (files ++ [e]) files.length
  := by
  constructor
  · intro h
    have hlt := h.lt_length
    rw [List.length_append, List.length_singleton, Nat.lt_succ_iff_lt_or_eq] at hlt
    rcases hlt with hi | rfl
    · left
      apply (leads_append_iff hi [e]).mp h
    · exact .inr ⟨rfl, h⟩
  · rintro (h | ⟨rfl, h⟩)
    · apply (leads_append_iff h.lt_length [e]).mpr h
    · apply h

theorem map_getElem?_append {files : List Entry} {positions : List Nat}
    (h : ∀ i ∈ positions, Leads files i) (more : List Entry) :
  positions.map ((files ++ more)[·]?) = positions.map (files[·]?)
  := by
  apply List.map_congr_left
  intro i hi
  apply List.getElem?_append_left (h i hi).lt_length

/-- The entries that get a row are those that lead. -/
theorem lists_shown (files : List Entry) :
  Lists files (shown files)
  := by
  -- Whether an entry leads depends on those before it, so the induction adds one at the end.
  induction files using List.reverseRecOn with
  | nil =>
    use [], List.Pairwise.nil
    simp [Leads, shown, firstOfName]
  | append_singleton files e ih =>
    obtain ⟨positions, hsorted, hmem, hmap⟩ := ih
    have hkept := map_getElem?_append (fun i hi => (hmem i).mp hi) [e]
    by_cases hleads : Leads (files ++ [e]) files.length
    · use positions ++ [files.length]
      refine ⟨?_, ?_, ?_⟩
      · rw [List.pairwise_append]
        use hsorted, List.pairwise_singleton _ _
        simpa using fun i hi => ((hmem i).mp hi).lt_length
      · intro i
        rw [leads_concat_cases, List.mem_append, hmem, List.mem_singleton]
        simp [hleads]
      · rw [shown_concat_of_leads hleads, List.map_append, List.map_append, hkept, hmap]
        simp
    · use positions, hsorted
      constructor
      · intro i
        rw [leads_concat_cases, hmem]
        simp [hleads]
      · rw [shown_concat_of_not_leads hleads, hkept, hmap]

/-! ### Rows -/

/-- The row has the name of the entry, two dashes at least and the count, with blanks between. -/
def IsRow (e : Entry) (row : Text) : Prop :=
  ∃ k ≥ 2, row = e.name ++ [' '] ++ List.replicate k '-' ++ [' '] ++ ofNat e.tokens

theorem isRow_row (n : Nat) (e : Entry) :
  IsRow e (row n e)
  := by
  use dashes n e.name (ofNat e.tokens), Nat.le_max_left _ _
  rfl

/-- A row ends seven characters behind the longest name if two dashes reach no further. -/
theorem length_row {n : Nat} {e : Entry}
    (h : e.name.length + (ofNat e.tokens).length ≤ n + 3) :
  (row n e).length = n + 7
  := by
  simp only [row, dashes, minDashes, List.length_append, List.length_singleton,
    List.length_replicate]
  omega

/-- The longest name, or the word for the total if that is longer. -/
theorem isGreatest_longest (files : List Entry) :
  IsGreatest {n | n = "TOTAL".toList.length ∨ ∃ e ∈ files, e.name.length = n} (longest files)
  := by
  have hmax : (5 :: files.map fun e => e.name.length).max? = some (longest files) :=
    List.max?_cons'
  obtain ⟨hmem, hle⟩ := List.max?_eq_some_iff.mp hmax
  rw [List.mem_cons, List.mem_map] at hmem
  rw [List.forall_mem_cons, List.forall_mem_map] at hle
  use hmem
  rintro n (rfl | ⟨e, he, rfl⟩)
  · apply hle.1
  · apply hle.2 e he

/-! ### The tokens shown -/

theorem firstOfName_of_nodup {files : List Entry} (h : (files.map Entry.name).Nodup) :
  firstOfName files = files
  := by
  induction files with
  | nil => rfl
  | cons e files ih =>
    rw [List.map_cons, List.nodup_cons] at h
    rw [firstOfName, ih h.2, List.filter_eq_self.mpr]
    intro f hf
    rw [bne_iff_ne]
    intro hname
    apply h.1
    rw [← hname]
    apply List.mem_map_of_mem hf

theorem sum_filter_tokens (files : List Entry) :
  ((files.filter fun e => e.tokens != 0).map Entry.tokens).sum = (files.map Entry.tokens).sum
  := by
  induction files with
  | nil => rfl
  | cons e files ih =>
    by_cases htokens : e.tokens = 0
    · rw [List.filter_cons_of_neg (by simpa using htokens), ih, List.map_cons, List.sum_cons,
        htokens, Nat.zero_add]
    · rw [List.filter_cons_of_pos (by simpa using htokens), List.map_cons, List.sum_cons, ih,
        List.map_cons, List.sum_cons]

/-- If no two entries have the same name, all tokens are shown. -/
theorem sum_shown {files : List Entry} (h : (files.map Entry.name).Nodup) :
  ((shown files).map Entry.tokens).sum = (files.map Entry.tokens).sum
  := by
  have hnames : ((files.filter fun e => e.tokens != 0).map Entry.name).Nodup :=
    h.sublist (List.filter_sublist.map Entry.name)
  rw [shown, firstOfName_of_nodup hnames, sum_filter_tokens]

/-- A report in Markdown has a row for each entry in order that has tokens, unless an entry with
tokens and the same name comes before it, and no other row.  A row holds the name, two dashes at
least and the count.  Rows in which name and count are not longer than the longest name shown (or
the word for the total) and three characters have the same width.  If no two entries have the same
name the counts shown add up to the total, if that is the sum of the entries. -/
theorem render_lists_rows (r : Report) (spec : SortSpec) :
  ∃ (listed : List Entry) (rows : List Text) (longest : Nat),
    r.render .markdown spec
      = join ['\n']
          (["**PICO-8 Token Usage**".toList, "```".toList] ++ rows
            ++ ["```".toList, [], "\n---\n".toList,
              "**Total:** ".toList ++ grouped r.total ++ " / ".toList ++ grouped r.limit,
              "**Remaining:** ".toList ++ groupThousands r.remaining ++ " (".toList
                ++ ofInt r.remainingPercent ++ "%)".toList])
    ∧ Lists (spec.sort r.files) listed
    ∧ List.Forall₂ IsRow listed rows
    ∧ IsGreatest {n | n = "TOTAL".toList.length ∨ ∃ e ∈ listed, e.name.length = n} longest
    ∧ (∀ p ∈ listed.zip rows, ∀ q ∈ listed.zip rows,
        p.1.name.length + (ofNat p.1.tokens).length ≤ longest + 3 →
        q.1.name.length + (ofNat q.1.tokens).length ≤ longest + 3 → p.2.length = q.2.length)
    ∧ ((r.files.map Entry.name).Nodup → r.total = (r.files.map Entry.tokens).sum →
        (listed.map Entry.tokens).sum = r.total)
  := by
  let listed := shown (spec.sort r.files)
  have hsort := (spec.stableSort_sort r.files).perm
  refine ⟨listed, listed.map (row (longest listed)), longest listed, rfl,
    lists_shown (spec.sort r.files), ?_, ?_, ?_, ?_⟩
  · rw [List.forall₂_map_right_iff, List.forall₂_same]
    intro e _
    apply isRow_row
  · apply isGreatest_longest
  · intro p hp q hq hshort hshort'
    rw [← List.map_prod_left_eq_zip, List.mem_map] at hp hq
    obtain ⟨e, -, rfl⟩ := hp
    obtain ⟨f, -, rfl⟩ := hq
    rw [length_row hshort, length_row hshort']
  · intro hnames htotal
    rw [sum_shown ((hsort.map Entry.name).nodup_iff.mpr hnames), htotal]
    apply (hsort.map Entry.tokens).sum_nat

/-- A name shorter than its neighbour, and an entry without tokens between two with tokens. -/
theorem render_lists_rows_three_files :
  ([.ofName "ab.p8".toList 2, .ofName "b".toList 0, .ofName "c".toList 13].map
      Entry.name).Nodup
    ∧ ∃ listed : List Entry,
      Lists (SortSpec.byName.sort
          [.ofName "ab.p8".toList 2, .ofName "b".toList 0, .ofName "c".toList 13]) listed
        ∧ (listed.map Entry.tokens).sum = 15
  := by
  have hnames : ([.ofName "ab.p8".toList 2, .ofName "b".toList 0, .ofName "c".toList 13].map
      Entry.name).Nodup := by
    decide
  use hnames
  obtain ⟨listed, -, -, -, hlists, -, -, -, hsum⟩ := render_lists_rows
    ⟨15, 8192, 8177, [.ofName "ab.p8".toList 2, .ofName "b".toList 0, .ofName "c".toList 13]⟩
    SortSpec.byName
  use listed, hlists, hsum hnames rfl

example : rows ⟨24, 8192, 8168, [.ofName "a".toList 0, .ofName "a".toList 5, .ofName "a".toList 7,
      .ofName "name.p8".toList 12]⟩
    = ["a ---------- 5".toList, "name.p8 --- 12".toList] := by
  decide

end Markdown

end CartTokens
