import CartTokens.Proofs.Bound
import CartTokens.Proofs.Explanation

/-!
# Taking the code out of a cartridge

A text is bare code (`Cartridge.BareCode`) if its first line of content is no header line and no
line of it is the marker of a section.  The code of every cartridge is bare
(`Cartridge.bareCode_code`), and the bare texts are those that are their own code
(`Cartridge.code_eq_self_iff`): cutting at a section does not bring another header to the front,
nor does it leave graphics only.  So taking the code out a second time changes nothing, neither
the text nor the count (`Cartridge.code_stable`).

A cartridge that begins with graphics is neither cut nor scanned.  What is counted and explained
is still what its lines of code come to (`count_account_eq_codeLines`).
-/

namespace CartTokens

namespace Text

/-- A line that is not blank is a part of the content. -/
theorem trim_mem_contentLines {t line : Text} (h : line ∈ lines t) (hne : trim line ≠ []) :
  trim line ∈ contentLines t
  := by
  rw [contentLines_eq_lines]
  apply List.mem_filter.mpr
  constructor
  · apply List.mem_map_of_mem h
  · simpa using hne

/-- The content begins with the first line that is not blank. -/
theorem head?_contentLines (t : Text) :
  (contentLines t).head? = ((lines t).find? fun line => !isBlankLine line).map trim
  := by
  have hblank : (fun line : Text => !line.isEmpty) ∘ trim = fun line => !isBlankLine line := by
    funext line
    rw [Function.comp_apply, isEmpty_trim]
  rw [contentLines_eq_lines, List.head?_filter, List.find?_map, hblank]

end Text

namespace Cartridge

open Text

/-! ### Bare code -/

/-- Code without a header in front of it and without the marker of a section. -/
structure BareCode (t : Text) : Prop where
  no_header : ∀ line ∈ (contentLines t).head?, ¬ isBanner line ∧ line ≠ codeMarker
  no_section : ∀ line ∈ contentLines t, line ∉ sectionMarkers

/-- No header line is left in front. -/
theorem no_header_dropHeaders (ls : List Text) :
  ∀ line ∈ (dropHeaders ls).head?, ¬ isBanner line ∧ line ≠ codeMarker
  := by
  fun_induction dropHeaders ls with
  | case1 =>
    intro line hline
    contradiction
  | case2 line rest hbanner ih => apply ih
  | case3 rest hbanner ih => apply ih
  | case4 line rest hbanner hmarker =>
    intro line' hline
    obtain rfl := Option.some.inj hline
    use hbanner, hmarker

/-- The code of a cartridge is bare. -/
theorem bareCode_code (t : Text) :
  BareCode (code t)
  := by
  constructor
  case no_header =>
    -- what is cut off at a section does not come to the front
    intro line hline
    rw [contentLines_code, List.head?_takeWhile, Option.mem_def, Option.filter_eq_some_iff] at hline
    apply no_header_dropHeaders (contentLines t) line hline.1
  case no_section =>
    intro line hline
    rw [contentLines_code] at hline
    simpa using List.mem_takeWhile_imp hline

theorem BareCode.trim_not_mem {t : Text} (h : BareCode t) {line : Text} (hline : line ∈ lines t) :
  trim line ∉ sectionMarkers
  := by
  intro hmarker
  have hne : trim line ≠ [] := by
    intro hnil
    rw [hnil] at hmarker
    contradiction
  apply h.no_section (trim line) (trim_mem_contentLines hline hne) hmarker

theorem BareCode.stripHeader_eq {t : Text} (h : BareCode t) :
  stripHeader t = t
  := by
  cases hfirst : firstLine? (pieces t) with
  | none => apply stripHeader_of_firstLine?_eq_none hfirst
  | some first =>
    obtain ⟨line, rest⟩ := first
    have hhead : line ∈ (contentLines t).head? := by
      rw [(contentLines_of_firstLine?_eq_some hfirst).1]
      rfl
    obtain ⟨hbanner, hmarker⟩ := h.no_header line hhead
    apply stripHeader_of_not_header hfirst hbanner hmarker

theorem BareCode.truncateSections_eq {t : Text} (h : BareCode t) :
  truncateSections t = t
  := by
  have hall : ∀ piece ∈ pieces t, !sectionMarkers.contains (trim piece) := by
    intro piece hpiece
    have hnot := h.trim_not_mem (List.mem_map_of_mem hpiece)
    rw [trim_chomp] at hnot
    simpa using hnot
  rw [truncateSections, List.takeWhile_eq_self_iff.mpr hall, flatten_pieces]

/-- The texts that are their own code are those that are bare. -/
theorem code_eq_self_iff (t : Text) :
  code t = t ↔ BareCode t
  := by
  constructor
  · intro h
    rw [← h]
    apply bareCode_code
  · intro h
    rw [code, h.stripHeader_eq, h.truncateSections_eq]

theorem code_code (t : Text) :
  code (code t) = code t
  := (code_eq_self_iff (code t)).mpr (bareCode_code t)

/-- The code of a cartridge is a part of it in which no line is the marker of a section and the
first line that is not blank is no header line.  The code of the code is the code, and costs what
the cartridge costs. -/
theorem code_stable (t : Text) :
  code t <:+: t
    ∧ (∀ line ∈ lines (code t), trim line ∉ sectionMarkers)
    ∧ (∀ line ∈ (lines (code t)).find? fun line => !isBlankLine line,
        ¬ isBanner (trim line) ∧ trim line ≠ codeMarker)
    ∧ code (code t) = code t
    ∧ countText (code t) = countText t
  := by
  have hbare := bareCode_code t
  refine ⟨isInfix_code t, ?_, ?_, code_code t, ?_⟩
  · intro line hline
    apply hbare.trim_not_mem hline
  · intro line hline
    apply hbare.no_header
    rw [head?_contentLines, Option.mem_def.mp hline]
    rfl
  · apply countText_congr
    rw [code_code]

end Cartridge

open Text

/-! ### Cartridges that begin with graphics -/

/-- The count and the account of a cartridge are those of its lines of code, whether or not it
begins with graphics. -/
theorem count_account_eq_codeLines (t : Text) :
  countText t = ((lines (stripComments (Cartridge.code t))).map Line.count).sum
    ∧ explainText t
      = (((lines (stripComments (Cartridge.code t))).zipIdx 1).map fun numbered =>
          ⟨numbered.2, Line.tokens numbered.1⟩).filter fun a => !a.tokens.isEmpty
  := by
  constructor
  · rw [countText_eq_sum, sum_count_lines]
  · apply explainText_eq

end CartTokens
