import CartTokens.Format.Explanation
import CartTokens.Proofs.Count

/-!
# Explanations agree with the count

The account of a cartridge and its printed form are made apart from the count.  `Explains t
accounts` says what ties them together: which lines of code the accounts list and with which
tokens, that all other lines cost nothing, and that the weights of the tokens, the total that
is printed and the weights of the rows that are printed all come to the count.  It holds of
the account of every cartridge (`explains_explainText`).

What is printed is read back from the text alone: `Explanation.printedWeights` reads the second
number of each row, `Explanation.printedTotal?` the number in the last line.
-/

namespace CartTokens

open Text

/-! ### Reading numbers -/

/-- The number a text begins with, blanks before it allowed, and the rest of the text. -/
def Text.number? (t : Text) : Option (Nat × Text) :=
  let digits := (t.dropWhile (· == ' ')).takeWhile Char.isDigit
  if digits.isEmpty then none
  else some (Nat.ofDigitChars 10 digits 0, (t.dropWhile (· == ' ')).dropWhile Char.isDigit)

/-- An aligned number before a blank is read back. -/
theorem number?_alignRight (width n : Nat) (rest : Text) :
  number? (alignRight width (ofNat n) ++ ' ' :: rest) = some (n, ' ' :: rest)
  := by
  have hdrop : (alignRight width (ofNat n) ++ ' ' :: rest).dropWhile (· == ' ')
      = ofNat n ++ ' ' :: rest := by
    obtain ⟨d, ds, hds⟩ := List.exists_cons_of_ne_nil (ofNat_ne_nil n)
    have hd : d ≠ ' ' := by
      rintro rfl
      have hdigit := isDigit_of_mem_ofNat (hds ▸ List.mem_cons_self : ' ' ∈ ofNat n)
      contradiction
    rw [alignRight, List.append_assoc, List.dropWhile_append_of_pos (by simp), hds]
    simp [hd]
  have htake : (ofNat n ++ ' ' :: rest).takeWhile Char.isDigit = ofNat n := by
    rw [List.takeWhile_append_of_pos fun c hc => isDigit_of_mem_ofNat hc]
    simp
  have hrest : (ofNat n ++ ' ' :: rest).dropWhile Char.isDigit = ' ' :: rest := by
    rw [List.dropWhile_append_of_pos fun c hc => isDigit_of_mem_ofNat hc]
    rfl
  have hne : (ofNat n).isEmpty = false := by
    rw [List.isEmpty_eq_false_iff]
    exact ofNat_ne_nil n
  unfold number?
  simp only [hdrop, htake, hrest, hne]
  rw [ofNat, Nat.ofDigitChars_ten_toDigits]
  rfl

theorem number?_cons_blank (t : Text) :
  number? (' ' :: t) = number? t
  := rfl

/-! ### What an explanation prints -/

namespace Explanation

/-- What a row says its line costs: the second of the numbers it begins with. -/
def rowWeight? (row : Text) : Option Nat :=
  ((number? row).bind fun line => number? line.2).map Prod.fst

/-- The weights of all rows in a printed explanation. -/
def printedWeights (printed : Text) : List Nat :=
  (parts '\n' printed).filterMap rowWeight?

/-- The number in a line that ends in the word for the total. -/
def lineTotal? (line : Text) : Option Nat :=
  ((number? line).filter fun found => found.2 == "  TOTAL".toList).map Prod.fst

/-- The total in the last line of a printed explanation. -/
def printedTotal? (printed : Text) : Option Nat :=
  (parts '\n' printed).getLast?.bind lineTotal?

/-- The last line of a printed explanation. -/
def totalLine (accounts : List Account) : Text :=
  alignRight 10 (ofNat (total accounts)) ++ "  TOTAL".toList

theorem number?_totalLine (accounts : List Account) :
  number? (totalLine accounts) = some (total accounts, "  TOTAL".toList)
  := number?_alignRight 10 (total accounts) " TOTAL".toList

/-- A row gives the weight of its line. -/
theorem rowWeight?_of_row_eq_some {all : Bool} {a : Account} {r : Text}
    (h : row all a = some r) :
  rowWeight? r = some a.weight
  := by
  unfold row at h
  split at h
  · contradiction
  · obtain rfl := Option.some.inj h
    have hshape : alignRight 5 (ofNat a.line) ++ [' '] ++ alignRight 4 (ofNat a.weight)
        ++ "  ".toList ++ join [' '] ((shown all a).map label)
        = alignRight 5 (ofNat a.line) ++ ' ' :: (alignRight 4 (ofNat a.weight)
          ++ ' ' :: ' ' :: join [' '] ((shown all a).map label)) := by simp
    rw [hshape, rowWeight?, number?_alignRight, Option.bind_some, number?_cons_blank,
      number?_alignRight, Option.map_some]

/-- A line that has no row costs nothing. -/
theorem weight_eq_zero_of_row_eq_none {all : Bool} {a : Account} (h : row all a = none) :
  a.weight = 0
  := by
  unfold row at h
  split at h
  · rename_i hshown
    rw [shown, List.isEmpty_iff, List.filter_eq_nil_iff] at hshown
    rw [Account.weight, List.sum_eq_zero_iff_forall_eq_nat]
    intro weight hweight
    obtain ⟨token, htoken, rfl⟩ := List.mem_map.mp hweight
    have hhidden := hshown token htoken
    simp only [Bool.or_eq_true, decide_eq_true_eq, not_or] at hhidden
    omega
  · contradiction

theorem total_cons (a : Account) (accounts : List Account) :
  total (a :: accounts) = a.weight + total accounts
  := List.sum_cons

/-- The rows that are printed have all the weight. -/
theorem sum_rowWeight?_rows (all : Bool) (accounts : List Account) :
  ((accounts.filterMap (row all)).filterMap rowWeight?).sum = total accounts
  := by
  induction accounts with
  | nil => rfl
  | cons a accounts ih =>
    rw [total_cons, List.filterMap_cons]
    cases h : row all a with
    | none => rw [weight_eq_zero_of_row_eq_none h, ih, Nat.zero_add]
    | some r => rw [List.filterMap_cons, rowWeight?_of_row_eq_some h, List.sum_cons, ih]

/-- Joined texts hold only characters of the separator and of the texts. -/
theorem mem_join {sep : Text} {ts : List Text} {c : Char} (h : c ∈ join sep ts) :
  c ∈ sep ∨ ∃ t ∈ ts, c ∈ t
  := by
  induction ts with
  | nil => exact absurd h List.not_mem_nil
  | cons t ts ih =>
    cases ts with
    | nil =>
      rw [join, List.intercalate_singleton] at h
      exact .inr ⟨t, List.mem_cons_self, h⟩
    | cons u us =>
      rw [join, List.intercalate_cons_cons, List.mem_append, List.mem_append] at h
      rcases h with (h | h) | h
      · exact .inr ⟨t, List.mem_cons_self, h⟩
      · exact .inl h
      · rcases ih h with hsep | ⟨v, hv, hc⟩
        · exact .inl hsep
        · exact .inr ⟨v, List.mem_cons_of_mem t hv, hc⟩

theorem not_mem_alignRight_ofNat (width n : Nat) :
  '\n' ∉ alignRight width (ofNat n)
  := by
  rw [alignRight, List.mem_append, List.mem_replicate, not_or]
  constructor
  · rintro ⟨-, h⟩
    contradiction
  · intro h
    have hdigit := isDigit_of_mem_ofNat h
    contradiction

theorem not_mem_label {token : Token} (h : '\n' ∉ token.text) :
  '\n' ∉ label token
  := by
  have hkind : '\n' ∉ token.kind.label := by
    cases token.kind <;> decide
  simp [label, h, hkind]

/-- The row of a line of code is a single line. -/
theorem not_mem_row {all : Bool} {a : Account} (ha : ∀ token ∈ a.tokens, '\n' ∉ token.text)
    {r : Text} (h : row all a = some r) :
  '\n' ∉ r
  := by
  unfold row at h
  split at h
  · contradiction
  · obtain rfl := Option.some.inj h
    have hlabels : '\n' ∉ join [' '] ((shown all a).map label) := by
      intro hmem
      rcases mem_join hmem with hsep | ⟨t, ht, hc⟩
      · contradiction
      · obtain ⟨token, htoken, rfl⟩ := List.mem_map.mp ht
        exact not_mem_label (ha token (List.mem_filter.mp htoken).1) hc
    simp [not_mem_alignRight_ofNat, hlabels]

section

variable {accounts : List Account}
  (h : ∀ a ∈ accounts, ∀ token ∈ a.tokens, '\n' ∉ token.text)

include h

/-- The lines of a printed explanation are the rows, a rule and the line of the total. -/
theorem parts_render (all : Bool) :
  parts '\n' (render accounts all)
    = accounts.filterMap (row all) ++ ["---".toList, totalLine accounts]
  := by
  have hlines : ∀ l ∈ accounts.filterMap (row all) ++ ["---".toList, totalLine accounts],
      '\n' ∉ l := by
    intro l hl
    rw [List.mem_append] at hl
    rcases hl with hl | hl
    · obtain ⟨a, ha, hrow⟩ := List.mem_filterMap.mp hl
      exact not_mem_row (h a ha) hrow
    · rw [List.mem_cons, List.mem_singleton] at hl
      rcases hl with rfl | rfl
      · decide
      · rw [totalLine, List.mem_append, not_or]
        exact ⟨not_mem_alignRight_ofNat _ _, by decide⟩
  rw [parts_eq_splitOn, render, join]
  exact List.splitOn_intercalate '\n' hlines (by simp)

/-- The total is read back from a printed explanation. -/
theorem printedTotal?_render (all : Bool) :
  printedTotal? (render accounts all) = some (total accounts)
  := by
  rw [printedTotal?, parts_render h, List.getLast?_append_of_ne_nil _ (List.cons_ne_nil _ _)]
  rw [List.getLast?_cons_cons, List.getLast?_singleton, Option.bind_some, lineTotal?,
    number?_totalLine]
  rfl

/-- The weights of the rows of a printed explanation come to the total. -/
theorem sum_printedWeights_render (all : Bool) :
  (printedWeights (render accounts all)).sum = total accounts
  := by
  have hrule : rowWeight? "---".toList = none := by decide
  have htotal : rowWeight? (totalLine accounts) = none := by
    rw [rowWeight?, number?_totalLine]
    rfl
  rw [printedWeights, parts_render h, List.filterMap_append, List.sum_append,
    sum_rowWeight?_rows, List.filterMap_cons_none hrule, List.filterMap_cons_none htotal]
  rfl

end

/-- A line without tokens adds nothing to the total. -/
theorem total_filter (accounts : List Account) :
  total (accounts.filter fun a => !a.tokens.isEmpty) = total accounts
  := by
  induction accounts with
  | nil => rfl
  | cons a accounts ih =>
    cases h : a.tokens.isEmpty with
    | false =>
      rw [List.filter_cons_of_pos (by rw [h]; rfl), total_cons, total_cons, ih]
    | true =>
      have hweight : a.weight = 0 := by
        rw [Account.weight, List.isEmpty_iff.mp h]
        rfl
      rw [List.filter_cons_of_neg (by rw [h]; decide), total_cons, hweight, ih, Nat.zero_add]

theorem sum_weight_flatMap (accounts : List Account) :
  ((accounts.flatMap Account.tokens).map Token.weight).sum = total accounts
  := by
  induction accounts with
  | nil => rfl
  | cons a accounts ih =>
    rw [List.flatMap_cons, List.map_append, List.sum_append, ih, total_cons, Account.weight]

end Explanation

/-! ### The account of a cartridge -/

/-- The account of all lines of code, those without tokens as well. -/
def fullAccount (t : Text) : List Account :=
  ((codeLines t).zipIdx 1).map fun numbered => ⟨numbered.2, Line.tokens numbered.1⟩

theorem map_line_fullAccount (t : Text) :
  (fullAccount t).map Account.line = List.range' 1 (codeLines t).length
  := by
  rw [fullAccount, List.map_map, ← List.zipIdx_map_snd]
  rfl

theorem map_weight_fullAccount (t : Text) :
  (fullAccount t).map Account.weight = (codeLines t).map Line.count
  := by
  have hweight : (Account.weight ∘ fun numbered : Text × Nat =>
      ⟨numbered.2, Line.tokens numbered.1⟩) = Line.count ∘ Prod.fst := rfl
  rw [fullAccount, List.map_map, hweight, ← List.map_map, List.zipIdx_map_fst]

theorem mem_fullAccount_iff {t : Text} {a : Account} :
  a ∈ fullAccount t
    ↔ 0 < a.line ∧ (codeLines t)[a.line - 1]?.map Line.tokens = some a.tokens
  := by
  rw [fullAccount, List.mem_map, Option.map_eq_some_iff]
  constructor
  · rintro ⟨⟨line, n⟩, hmem, rfl⟩
    obtain ⟨hn, hline⟩ := List.mk_mem_zipIdx_iff_le_and_getElem?_sub.mp hmem
    exact ⟨hn, line, hline, rfl⟩
  · rintro ⟨hn, line, hline, htokens⟩
    use (line, a.line)
    constructor
    · exact List.mk_mem_zipIdx_iff_le_and_getElem?_sub.mpr ⟨hn, hline⟩
    · rw [htokens]

/-- The lines of code of a cartridge of graphics only are blank. -/
theorem tokens_eq_nil_of_isGraphicsOnly {t : Text} (h : Cartridge.isGraphicsOnly t)
    {line : Text} (hline : line ∈ codeLines t) :
  Line.tokens line = []
  := by
  have hnil := contentLines_stripComments_of_eq_nil (contentLines_code_of_isGraphicsOnly h)
  rw [contentLines_eq_lines, List.filter_eq_nil_iff] at hnil
  have htrim : trim line = [] := by
    simpa using hnil (trim line) (List.mem_map_of_mem hline)
  rw [← Line.tokens_trim, htrim, Line.tokens_nil]

/-- The account lists the lines with tokens, also for graphics. -/
theorem explainText_eq (t : Text) :
  explainText t = (fullAccount t).filter fun a => !a.tokens.isEmpty
  := by
  unfold explainText
  split
  · rename_i hgraphics
    symm
    rw [List.filter_eq_nil_iff]
    intro a ha
    obtain ⟨⟨line, n⟩, hmem, rfl⟩ := List.mem_map.mp ha
    rw [tokens_eq_nil_of_isGraphicsOnly hgraphics (List.fst_mem_of_mem_zipIdx hmem)]
    exact Bool.false_ne_true
  · rfl

/-- The account goes down the lines of code. -/
theorem pairwise_line_explainText (t : Text) :
  ((explainText t).map Account.line).Pairwise (· < ·)
  := by
  have hfull : ((fullAccount t).map Account.line).Pairwise (· < ·) := by
    rw [map_line_fullAccount]
    exact List.pairwise_lt_range'
  rw [explainText_eq]
  exact hfull.sublist (List.filter_sublist.map Account.line)

/-- A line of code that the account does not list costs nothing. -/
theorem count_eq_zero_of_not_listed {t : Text} {n : Nat} {line : Text}
    (hline : (codeLines t)[n]? = some line)
    (hn : n + 1 ∉ (explainText t).map Account.line) :
  Line.count line = 0
  := by
  by_contra hcount
  have htokens : Line.tokens line ≠ [] := by
    intro hnil
    rw [Line.count, hnil] at hcount
    contradiction
  apply hn
  apply List.mem_map.mpr
  use ⟨n + 1, Line.tokens line⟩
  rw [explainText_eq, List.mem_filter, mem_fullAccount_iff]
  simp [hline, htokens]

/-- The account has the weight of all lines of code. -/
theorem total_explainText (t : Text) :
  Explanation.total (explainText t) = countText t
  := by
  rw [explainText_eq, Explanation.total_filter, Explanation.total, map_weight_fullAccount,
    codeLines, sum_count_lines, countText_eq_sum]

/-- The tokens of an account are single lines. -/
theorem not_mem_of_mem_explainText {t : Text} {a : Account} (ha : a ∈ explainText t)
    {token : Token} (htoken : token ∈ a.tokens) :
  '\n' ∉ token.text
  := by
  rw [explainText_eq, List.mem_filter, mem_fullAccount_iff, Option.map_eq_some_iff] at ha
  obtain ⟨⟨-, line, hline, htokens⟩, -⟩ := ha
  intro hbreak
  rw [← htokens] at htoken
  exact not_mem_of_mem_lines (List.mem_of_getElem? hline) (Line.mem_of_mem_tokens htoken hbreak)

/-- Accounts that explain the count of a cartridge, in print as well. -/
structure Explains (t : Text) (accounts : List Account) : Prop where
  increasing : (accounts.map Account.line).Pairwise (· < ·)
  tokens_eq : ∀ a ∈ accounts,
    0 < a.line ∧ (codeLines t)[a.line - 1]?.map Line.tokens = some a.tokens
  count_eq_zero : ∀ n line, (codeLines t)[n]? = some line →
    n + 1 ∉ accounts.map Account.line → Line.count line = 0
  weights : ((accounts.flatMap Account.tokens).map Token.weight).sum = countText t
  printedTotal : ∀ all,
    Explanation.printedTotal? (Explanation.render accounts all) = some (countText t)
  printedWeights : ∀ all,
    (Explanation.printedWeights (Explanation.render accounts all)).sum = countText t

/-- The account of a cartridge explains its count. -/
theorem explains_explainText (t : Text) :
  Explains t (explainText t)
  := by
  have hbreak : ∀ a ∈ explainText t, ∀ token ∈ a.tokens, '\n' ∉ token.text := by
    intro a ha token htoken
    exact not_mem_of_mem_explainText ha htoken
  constructor
  case increasing => exact pairwise_line_explainText t
  case tokens_eq =>
    intro a ha
    rw [explainText_eq] at ha
    exact mem_fullAccount_iff.mp (List.mem_of_mem_filter ha)
  case count_eq_zero => exact fun _ _ => count_eq_zero_of_not_listed
  case weights =>
    rw [Explanation.sum_weight_flatMap, total_explainText]
  case printedTotal =>
    intro all
    rw [Explanation.printedTotal?_render hbreak, total_explainText]
  case printedWeights =>
    intro all
    rw [Explanation.sum_printedWeights_render hbreak, total_explainText]

end CartTokens
