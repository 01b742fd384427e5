import CartTokens.Vocabulary
import Mathlib.Data.List.Infix

/-!
# Classes of characters

The characters that may begin a lexeme fall into classes: the dot, quotation marks, blanks,
characters that begin a name, digits, and all others, which stand alone (`StandsAlone`).  No
character is in two of them.  The characters of names are letters, digits and the underscore
below code 128, and the glyphs, so what holds of them can be checked one by one
(`nameChar_induction`).
-/

namespace CartTokens

/-- A character that is a token of its own. -/
structure StandsAlone (c : Char) : Prop where
  not_dot : c ≠ '.'
  not_quote : ¬ isQuote c
  not_blank : ¬ isBlank c
  not_nameStart : ¬ isNameStart c
  not_digit : ¬ isDigit c

/-! ### Names -/

/-- A property of the characters of a list is checked one by one; deciding it as it stands would
go through all characters. -/
theorem forall_mem_of_all {p : Char → Prop} [DecidablePred p] {cs : List Char}
    (h : cs.all fun c => decide (p c)) :
  ∀ c ∈ cs, p c
  := by
  intro c hc
  apply of_decide_eq_true
  apply List.all_eq_true.mp h c hc

theorem isNameChar_of_isNameStart {c : Char} (h : isNameStart c) :
  isNameChar c
  := by
  rw [isNameChar, h, Bool.true_or]

theorem isNameChar_of_isDigit {c : Char} (h : isDigit c) :
  isNameChar c
  := by
  rw [isNameChar, h, Bool.or_true]

theorem isNameStart_of_isGlyph {c : Char} (h : isGlyph c) :
  isNameStart c
  := by
  rw [isNameStart, h, Bool.or_true]

/-- The letters lie in two ranges. -/
theorem isLetter_iff (c : Char) :
  isLetter c ↔ ('A' ≤ c ∧ c ≤ 'Z') ∨ ('a' ≤ c ∧ c ≤ 'z')
  := by
  have hletter : isLetter c ↔ c.isUpper ∨ c.isLower := Bool.or_eq_true_iff
  have hupper : c.isUpper ↔ 'A' ≤ c ∧ c ≤ 'Z' := decide_eq_true_iff
  have hlower : c.isLower ↔ 'a' ≤ c ∧ c ≤ 'z' :=
    Bool.and_eq_true_iff.trans (and_congr decide_eq_true_iff decide_eq_true_iff)
  rw [hletter, hupper, hlower]

theorem isNameStart_of_isLetter {c : Char} (h : isLetter c) :
  isNameStart c
  := by
  rw [isNameStart, h, Bool.true_or, Bool.true_or]

theorem toNat_lt_of_isNameChar {c : Char} (h : isNameChar c) (hg : ¬ isGlyph c) :
  c.toNat < 128
  := by
  have hle : ∀ {d : Char}, d.toNat < 128 → c ≤ d → c.toNat < 128 :=
    fun hd hcd => lt_of_le_of_lt hcd hd
  rw [isNameChar, isNameStart, Bool.or_eq_true, Bool.or_eq_true, Bool.or_eq_true, isLetter_iff,
    beq_iff_eq] at h
  obtain (((⟨-, hc⟩ | ⟨-, hc⟩) | rfl) | hc) | hc := h
  · apply hle (by decide) hc
  · apply hle (by decide) hc
  · decide
  · exact absurd hc hg
  · rw [isDigit, Char.isDigit_iff_toNat] at hc
    apply lt_of_le_of_lt hc.2 (by decide)

/-- A property that holds of the characters of names below code 128, and of the glyphs, holds
of all characters of names. -/
theorem nameChar_induction {motive : Char → Prop}
    (ascii : ∀ n < 128, isNameChar (Char.ofNat n) → motive (Char.ofNat n))
    (glyph : ∀ g ∈ glyphs, motive g) {c : Char} (h : isNameChar c) :
  motive c
  := by
  by_cases hg : isGlyph c
  · apply glyph c
    rwa [isGlyph, List.contains_iff_mem] at hg
  · have hcode := toNat_lt_of_isNameChar h hg
    rw [← Char.ofNat_toNat c] at h ⊢
    exact ascii c.toNat hcode h

theorem not_isBlank_of_isNameChar {c : Char} (h : isNameChar c) :
  ¬ isBlank c
  := nameChar_induction (motive := fun c => ¬ isBlank c) (by decide +kernel)
    (forall_mem_of_all (by decide)) h

theorem not_isQuote_of_isNameChar {c : Char} (h : isNameChar c) :
  ¬ isQuote c
  := nameChar_induction (motive := fun c => ¬ isQuote c) (by decide +kernel)
    (forall_mem_of_all (by decide)) h

theorem ne_dot_of_isNameChar {c : Char} (h : isNameChar c) :
  c ≠ '.'
  := by
  rintro rfl
  contradiction

theorem not_isNameStart_of_isDigit {c : Char} (h : isDigit c) :
  ¬ isNameStart c
  := nameChar_induction (motive := fun c => isDigit c → ¬ isNameStart c) (by decide +kernel)
    (forall_mem_of_all (by decide)) (isNameChar_of_isDigit h) h

theorem isGlyphRun_iff (t : Text) :
  isGlyphRun t ↔ t ≠ [] ∧ ∀ c ∈ t, isGlyph c
  := by
  rw [isGlyphRun, Bool.and_eq_true, List.all_eq_true, Bool.not_eq_true', List.isEmpty_eq_false_iff]

/-- Glyphs alone form a name. -/
theorem isName_of_isGlyphRun {t : Text} (h : isGlyphRun t) :
  isName t
  := by
  rw [isGlyphRun_iff] at h
  obtain ⟨c, t, rfl⟩ := List.exists_cons_of_ne_nil h.1
  rw [List.forall_mem_cons] at h
  rw [isName, Bool.and_eq_true, List.all_eq_true]
  constructor
  · exact isNameStart_of_isGlyph h.2.1
  · intro d hd
    exact isNameChar_of_isNameStart (isNameStart_of_isGlyph (h.2.2 d hd))

/-! ### Blanks and quotation marks -/

theorem isBlank_of_isSpace {c : Char} (h : isSpace c) :
  isBlank c
  := by
  rw [isBlank, h, Bool.or_true]

theorem ne_dot_of_isBlank {c : Char} (h : isBlank c) :
  c ≠ '.'
  := by
  rintro rfl
  contradiction

theorem isQuote_iff (c : Char) :
  isQuote c ↔ c = '\x22' ∨ c = '\x27'
  := by
  rw [isQuote, Bool.or_eq_true, beq_iff_eq, beq_iff_eq]

theorem not_isBlank_of_isQuote {c : Char} (h : isQuote c) :
  ¬ isBlank c
  := by
  obtain rfl | rfl := (isQuote_iff c).mp h <;> decide

theorem ne_dot_of_isQuote {c : Char} (h : isQuote c) :
  c ≠ '.'
  := by
  rintro rfl
  contradiction

theorem ne_backslash_of_isQuote {c : Char} (h : isQuote c) :
  c ≠ '\\'
  := by
  rintro rfl
  contradiction

/-- A character that no name, no number and no run of dots goes on with. -/
structure Separates (c : Char) : Prop where
  not_dot : c ≠ '.'
  not_nameChar : ¬ isNameChar c

theorem separates_of_isBlank {c : Char} (h : isBlank c) :
  Separates c
  := by
  constructor
  case not_dot => apply ne_dot_of_isBlank h
  case not_nameChar => exact fun hname => not_isBlank_of_isNameChar hname h

theorem separates_of_isQuote {c : Char} (h : isQuote c) :
  Separates c
  := by
  constructor
  case not_dot => apply ne_dot_of_isQuote h
  case not_nameChar => exact fun hname => not_isQuote_of_isNameChar hname h

/-! ### Digits in other radices -/

/-- The letters that mark a number in another radix. -/
def radixMarks : List Char := ['x', 'X', 'b', 'B']

theorem mem_radixMarks_of_isRadixDigit {mark d : Char} (h : isRadixDigit mark d) :
  mark ∈ radixMarks
  := by
  simp only [isRadixDigit, Bool.or_eq_true, beq_iff_eq] at h
  split at h
  · rename_i hmark
    obtain rfl | rfl := hmark <;> decide
  · split at h
    · rename_i hmark
      obtain rfl | rfl := hmark <;> decide
    · contradiction

theorem isNameChar_of_mem_radixMarks :
  ∀ mark ∈ radixMarks, isNameChar mark
  := forall_mem_of_all (by decide)

theorem not_isBlank_of_mem_radixMarks :
  ∀ mark ∈ radixMarks, ¬ isBlank mark
  := fun mark hmark => not_isBlank_of_isNameChar (isNameChar_of_mem_radixMarks mark hmark)

theorem isNameChar_of_isHexDigit {d : Char} (h : isHexDigit d) :
  isNameChar d
  := by
  simp only [isHexDigit, Bool.or_eq_true, Bool.and_eq_true, decide_eq_true_eq] at h
  obtain (hdigit | ⟨hfirst, hlast⟩) | ⟨hfirst, hlast⟩ := h
  · apply isNameChar_of_isDigit hdigit
  · apply isNameChar_of_isNameStart
    apply isNameStart_of_isLetter
    rw [isLetter_iff]
    exact .inr ⟨hfirst, Char.le_trans hlast (by decide : 'f' ≤ 'z')⟩
  · apply isNameChar_of_isNameStart
    apply isNameStart_of_isLetter
    rw [isLetter_iff]
    exact .inl ⟨hfirst, Char.le_trans hlast (by decide : 'F' ≤ 'Z')⟩

theorem isNameChar_of_isRadixDigit {mark d : Char} (h : isRadixDigit mark d) :
  isNameChar d
  := by
  simp only [isRadixDigit, Bool.or_eq_true, beq_iff_eq] at h
  split at h
  · exact isNameChar_of_isHexDigit h
  · split at h
    · obtain rfl | rfl : d = '0' ∨ d = '1' := by simpa using h
      · decide
      · decide
    · contradiction

end CartTokens
