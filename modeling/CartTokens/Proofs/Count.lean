import CartTokens.Count
import CartTokens.Proofs.Cartridge
import CartTokens.Proofs.Line

/-!
# What the count depends on

The count of a cartridge is the sum of what the lines of its code cost, also when its first
line announces graphics (`countText_eq_sum`), and a line costs what its trimmed form costs
(`Line.count_trim`).  Hence the count depends on the content of the cartridge alone
(`countText_eq_of_contentLines_eq`), and nothing that follows the marker of a section has a
part in it (`countText_append_section`).
-/

namespace CartTokens

open Text

/-! ### Lines of code -/

/-- The lines of a text cost what its content costs. -/
theorem sum_count_lines (t : Text) :
  ((lines t).map Line.count).sum = ((contentLines t).map Line.count).sum
  := by
  rw [Line.sum_count_eq_of_trim, contentLines_eq_lines]

/-- The cost of all lines of a text. -/
def cost (t : Text) : Nat :=
  ((contentLines t).map Line.count).sum

theorem sum_count_eq_cost (t : Text) :
  ((lines t).map Line.count).sum = cost t
  := sum_count_lines t

theorem cost_append_break (s t : Text) :
  cost (s ++ '\n' :: t) = cost s + cost t
  := by
  rw [cost, contentLines_append_break, List.map_append, List.sum_append]
  rfl

theorem cost_line {l : Text} (h : '\n' ∉ l) :
  cost l = Line.count l
  := by
  rw [← Line.count_trim, cost, contentLines_line h]
  by_cases hnil : trim l = []
  · rw [hnil, Line.count_nil]
    rfl
  · rw [List.filter_cons_of_pos (by simpa using hnil)]
    apply List.sum_singleton

/-! ### Cartridges -/

/-- The first line of content announces graphics. -/
theorem isGraphicsOnly_iff (t : Text) :
  Cartridge.isGraphicsOnly t ↔ (contentLines t).head? = some Cartridge.graphicsMarker
  := by
  rw [Cartridge.isGraphicsOnly, beq_iff_eq, contentLines_eq_lines, List.head?_filter]

/-- A cartridge of graphics only has no code. -/
theorem contentLines_code_of_isGraphicsOnly {t : Text} (h : Cartridge.isGraphicsOnly t) :
  contentLines (Cartridge.code t) = []
  := by
  rw [isGraphicsOnly_iff, List.head?_eq_some_iff] at h
  obtain ⟨rest, hrest⟩ := h
  have hmem : Cartridge.graphicsMarker ∈ Cartridge.sectionMarkers := by decide
  have hdrop := Cartridge.dropHeaders_append hmem [] rest
  rw [List.nil_append, Cartridge.dropHeaders, List.nil_append] at hdrop
  rw [Cartridge.contentLines_code, hrest, hdrop]
  exact List.takeWhile_cons_of_neg (by decide)

/-- The content of the code without its comments depends on the content of the code alone. -/
theorem contentLines_stripComments_congr {s t : Text} (h : contentLines s = contentLines t) :
  contentLines (stripComments s) = contentLines (stripComments t)
  := contentLines_replaceComments_congr [] h

theorem contentLines_stripComments_of_eq_nil {t : Text} (h : contentLines t = []) :
  contentLines (stripComments t) = []
  := by
  have hnil : contentLines t = contentLines [] := h
  rw [contentLines_stripComments_congr hnil, stripComments,
    replaceComments_of_findOpener_eq_none [] rfl]
  rfl

/-- The count is the sum of what the lines of code cost, also for graphics. -/
theorem countText_eq_sum (t : Text) :
  countText t = ((contentLines (stripComments (Cartridge.code t))).map Line.count).sum
  := by
  unfold countText
  split
  · rename_i h
    rw [contentLines_stripComments_of_eq_nil (contentLines_code_of_isGraphicsOnly h)]
    rfl
  · rw [codeLines, sum_count_lines]

/-- Cartridges whose code has the same content have the same count. -/
theorem countText_congr {s t : Text}
    (h : contentLines (Cartridge.code s) = contentLines (Cartridge.code t)) :
  countText s = countText t
  := by
  rw [countText_eq_sum, countText_eq_sum, contentLines_stripComments_congr h]

/-- The layout of a cartridge has no part in its count: cartridges with the same lines, up to
white space at the ends of lines and blank lines, have the same count. -/
theorem countText_eq_of_contentLines_eq {s t : Text} (h : contentLines s = contentLines t) :
  countText s = countText t
  := by
  apply countText_congr
  rw [Cartridge.contentLines_code, Cartridge.contentLines_code, h]

theorem countText_eq_of_other_line_ends :
  contentLines "pico-8 cartridge\r\n\r\n__lua__\r\n  x=1 --[[a\r\n b]]\r\n\t__gfx__".toList
      = contentLines "pico-8 cartridge\n__lua__\nx=1 --[[a\nb]]\n__gfx__\n".toList
    ∧ countText "pico-8 cartridge\r\n\r\n__lua__\r\n  x=1 --[[a\r\n b]]\r\n\t__gfx__".toList
      = countText "pico-8 cartridge\n__lua__\nx=1 --[[a\nb]]\n__gfx__\n".toList
  := ⟨by decide, countText_eq_of_contentLines_eq (by decide)⟩

/-- Nothing that follows the marker of a section has a part in the count. -/
theorem countText_append_section {marker : Text} (h : marker ∈ Cartridge.sectionMarkers)
    {v w : Text} (hv : isBlankLine v) (hw : isBlankLine w) (body tail : Text) :
  countText (body ++ ['\n'] ++ v ++ marker ++ w ++ ['\n'] ++ tail) = countText body
  := by
  have hshape : body ++ ['\n'] ++ v ++ marker ++ w ++ ['\n'] ++ tail
      = body ++ '\n' :: (v ++ marker ++ w) ++ '\n' :: tail := by simp
  rw [hshape]
  apply countText_congr
  apply Cartridge.contentLines_code_append_marker h hv hw

theorem countText_append_map :
  "__map__".toList ∈ Cartridge.sectionMarkers ∧ isBlankLine [' '] ∧ isBlankLine ['\t', '\r']
    ∧ countText ("x=1--[[".toList ++ ['\n'] ++ [' '] ++ "__map__".toList ++ ['\t', '\r'] ++ ['\n']
        ++ "]]\n__lua__\ny=2".toList)
      = countText "x=1--[[".toList
  := ⟨by decide, rfl, rfl, countText_append_section (by decide) rfl rfl _ _⟩

end CartTokens
