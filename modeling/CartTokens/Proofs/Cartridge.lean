import CartTokens.Cartridge
import CartTokens.Proofs.ContentLines

/-!
# The code of a cartridge, line by line

Taking headers off and cutting at a section are operations on whole texts.  Here they are
described through the content of the text: `dropHeaders` takes header lines off a list of
lines, and `Cartridge.contentLines_code` says that the content of the code of a cartridge is
what `dropHeaders` leaves of its content, up to the first marker of a section.

What `Cartridge.stripHeader` does with a text is decided by its first line that is not blank:
`Cartridge.stripHeader_of_isBanner`, `Cartridge.stripHeader_of_codeMarker` and
`Cartridge.stripHeader_of_not_header`.
-/

namespace CartTokens

namespace Cartridge

open Text

/-! ### The first line that is not blank -/

theorem firstLine?_line {l : Text} (hl : '\n' ∉ l) :
  firstLine? (pieces l) = if isBlankLine l then none else some (trim l, [])
  := by
  by_cases hne : l = []
  · subst hne
    rfl
  · rw [pieces_line hl hne, firstLine?, isEmpty_trim]
    rfl

theorem firstLine?_append_break {l : Text} (hl : '\n' ∉ l) (t : Text) :
  firstLine? (pieces (l ++ '\n' :: t))
    = if isBlankLine l then firstLine? (pieces t) else some (trim l, t)
  := by
  rw [pieces_append_break hl, firstLine?, trim_append_blank l isBlankLine_break, isEmpty_trim,
    flatten_pieces]

/-- A text without a first line has no content. -/
theorem contentLines_of_firstLine?_eq_none {t : Text} (h : firstLine? (pieces t) = none) :
  contentLines t = []
  := by
  induction t using line_induction with
  | line l hl =>
    rw [firstLine?_line hl] at h
    split at h
    · rename_i hb
      apply contentLines_of_isBlankLine hb
    · contradiction
  | cut l t hl ih =>
    rw [firstLine?_append_break hl] at h
    split at h
    · rename_i hb
      rw [contentLines_append_break, contentLines_of_isBlankLine hb, ih h, List.nil_append]
    · contradiction

/-- The first line is the head of the content; the text after it has the rest of the content
and is shorter. -/
theorem contentLines_of_firstLine?_eq_some {t line rest : Text}
    (h : firstLine? (pieces t) = some (line, rest)) :
  contentLines t = line :: contentLines rest ∧ rest.length < t.length
  := by
  induction t using line_induction with
  | line l hl =>
    rw [firstLine?_line hl] at h
    split at h
    · contradiction
    · rename_i hb
      obtain ⟨rfl, rfl⟩ := Prod.mk.inj (Option.some.inj h)
      constructor
      · rw [contentLines_of_not_isBlankLine hl hb]
        rfl
      · apply List.length_pos_iff.mpr
        rintro rfl
        contradiction
  | cut l t hl ih =>
    rw [List.length_append, List.length_cons]
    rw [firstLine?_append_break hl] at h
    split at h
    · rename_i hb
      obtain ⟨hc, hlt⟩ := ih h
      constructor
      · rw [contentLines_append_break, contentLines_of_isBlankLine hb, hc, List.nil_append]
      · omega
    · rename_i hb
      obtain ⟨rfl, rfl⟩ := Prod.mk.inj (Option.some.inj h)
      constructor
      · rw [contentLines_append_break, contentLines_of_not_isBlankLine hl hb]
        rfl
      · omega

/-! ### Headers -/

theorem dropLineIf_of_firstLine?_eq_none {t : Text} (h : firstLine? (pieces t) = none)
    (p : Text → Bool) :
  dropLineIf p t = t
  := by
  rw [dropLineIf, h]

theorem dropLineIf_of_firstLine?_eq_some {t line rest : Text}
    (h : firstLine? (pieces t) = some (line, rest)) (p : Text → Bool) :
  dropLineIf p t = if p line then rest else t
  := by
  rw [dropLineIf, h]

/-- A text without a first line that is a banner keeps its banner and version. -/
theorem dropBanner_of_dropLineIf_eq_self {t : Text} (h : dropLineIf isBanner t = t) :
  dropBanner t = t
  := by
  rw [dropBanner, h]
  apply if_pos rfl

theorem stripHeader_of_dropHeader_eq_self {t : Text} (h : dropHeader t = t) :
  stripHeader t = t
  := by
  rw [stripHeader, h]
  apply if_neg (Nat.lt_irrefl _)

theorem stripHeader_of_length_dropHeader_lt {t : Text} (h : (dropHeader t).length < t.length) :
  stripHeader t = stripHeader (dropHeader t)
  := by
  rw [stripHeader, if_pos h]

/-- A code marker in front goes with the header. -/
theorem stripHeader_of_codeMarker {t rest : Text}
    (h : firstLine? (pieces t) = some (codeMarker, rest)) :
  stripHeader t = stripHeader rest
  := by
  have hlt := (contentLines_of_firstLine?_eq_some h).2
  have hb : dropBanner t = t := by
    apply dropBanner_of_dropLineIf_eq_self
    rw [dropLineIf_of_firstLine?_eq_some h]
    apply if_neg (by decide)
  have hd : dropHeader t = rest := by
    rw [dropHeader, hb, dropLineIf_of_firstLine?_eq_some h]
    apply if_pos (by decide)
  rw [← hd]
  apply stripHeader_of_length_dropHeader_lt
  rwa [hd]

theorem stripHeader_dropLineIf_codeMarker (t : Text) :
  stripHeader (dropLineIf (· == codeMarker) t) = stripHeader t
  := by
  cases h : firstLine? (pieces t) with
  | none => rw [dropLineIf_of_firstLine?_eq_none h]
  | some first =>
    obtain ⟨line, rest⟩ := first
    rw [dropLineIf_of_firstLine?_eq_some h]
    split
    · rename_i hm
      rw [eq_of_beq hm] at h
      rw [stripHeader_of_codeMarker h]
    · rfl

theorem length_dropLineIf_le (p : Text → Bool) (t : Text) :
  (dropLineIf p t).length ≤ t.length
  := by
  cases h : firstLine? (pieces t) with
  | none => rw [dropLineIf_of_firstLine?_eq_none h]
  | some first =>
    obtain ⟨line, rest⟩ := first
    rw [dropLineIf_of_firstLine?_eq_some h]
    split
    · exact (contentLines_of_firstLine?_eq_some h).2.le
    · exact le_rfl

/-- A banner in front goes with the header, and so does a version line below it. -/
theorem stripHeader_of_isBanner {t line rest : Text}
    (h : firstLine? (pieces t) = some (line, rest)) (hb : isBanner line) :
  stripHeader t = stripHeader (dropLineIf isVersion rest)
  := by
  have hlt := (contentLines_of_firstLine?_eq_some h).2
  have hd : dropBanner t = dropLineIf isVersion rest := by
    rw [dropBanner, dropLineIf_of_firstLine?_eq_some h, if_pos hb]
    apply if_neg hlt.ne
  have hh : dropHeader t = dropLineIf (· == codeMarker) (dropLineIf isVersion rest) := by
    rw [dropHeader, hd]
  have hle : (dropHeader t).length ≤ rest.length := by
    rw [hh]
    exact (length_dropLineIf_le _ _).trans (length_dropLineIf_le _ _)
  rw [stripHeader_of_length_dropHeader_lt (lt_of_le_of_lt hle hlt), hh,
    stripHeader_dropLineIf_codeMarker]

/-- Any other line in front is kept. -/
theorem stripHeader_of_not_header {t line rest : Text}
    (h : firstLine? (pieces t) = some (line, rest)) (hb : ¬ isBanner line)
    (hm : line ≠ codeMarker) :
  stripHeader t = t
  := by
  apply stripHeader_of_dropHeader_eq_self
  have hd : dropBanner t = t := by
    apply dropBanner_of_dropLineIf_eq_self
    rw [dropLineIf_of_firstLine?_eq_some h, if_neg hb]
  rw [dropHeader, hd, dropLineIf_of_firstLine?_eq_some h]
  apply if_neg
  rwa [beq_iff_eq]

theorem stripHeader_of_firstLine?_eq_none {t : Text} (h : firstLine? (pieces t) = none) :
  stripHeader t = t
  := by
  apply stripHeader_of_dropHeader_eq_self
  have hd : dropBanner t = t := by
    apply dropBanner_of_dropLineIf_eq_self
    rw [dropLineIf_of_firstLine?_eq_none h]
  rw [dropHeader, hd, dropLineIf_of_firstLine?_eq_none h]

/-! ### Headers and sections as lists of lines -/

/-- The lines after the first one, if that one satisfies `p`; else all lines. -/
def dropFirstIf (p : Text → Bool) : List Text → List Text
  | [] => []
  | line :: rest => if p line then rest else line :: rest

theorem length_dropFirstIf_le (p : Text → Bool) (ls : List Text) :
  (dropFirstIf p ls).length ≤ ls.length
  := by
  cases ls with
  | nil => exact le_rfl
  | cons line rest =>
    rw [dropFirstIf]
    split
    · apply Nat.le_succ
    · exact le_rfl

/-- The lines after all header lines in front: banners, each with a version line below it if
there is one, and code markers. -/
def dropHeaders : List Text → List Text
  | [] => []
  | line :: rest =>
    if isBanner line then dropHeaders (dropFirstIf isVersion rest)
    else if line = codeMarker then dropHeaders rest
    else line :: rest
termination_by ls => ls.length
decreasing_by
  · exact Nat.lt_succ_of_le (length_dropFirstIf_le isVersion rest)
  · exact Nat.lt_succ_self rest.length

theorem contentLines_dropLineIf (p : Text → Bool) (t : Text) :
  contentLines (dropLineIf p t) = dropFirstIf p (contentLines t)
  := by
  cases h : firstLine? (pieces t) with
  | none =>
    rw [dropLineIf_of_firstLine?_eq_none h, contentLines_of_firstLine?_eq_none h]
    rfl
  | some first =>
    obtain ⟨line, rest⟩ := first
    have hc := (contentLines_of_firstLine?_eq_some h).1
    rw [dropLineIf_of_firstLine?_eq_some h, hc, dropFirstIf]
    split
    · rfl
    · exact hc

/-- The content that is left without the headers is the content without its header lines. -/
theorem contentLines_stripHeader (t : Text) :
  contentLines (stripHeader t) = dropHeaders (contentLines t)
  := by
  induction hn : t.length using Nat.strong_induction_on generalizing t with
  | _ n ih =>
    subst hn
    cases h : firstLine? (pieces t) with
    | none =>
      rw [stripHeader_of_firstLine?_eq_none h, contentLines_of_firstLine?_eq_none h, dropHeaders]
    | some first =>
      obtain ⟨line, rest⟩ := first
      obtain ⟨hc, hlt⟩ := contentLines_of_firstLine?_eq_some h
      by_cases hb : isBanner line
      · have hle := length_dropLineIf_le isVersion rest
        rw [stripHeader_of_isBanner h hb, ih _ (lt_of_le_of_lt hle hlt) _ rfl,
          contentLines_dropLineIf, hc, dropHeaders.eq_2, if_pos hb]
      · by_cases hm : line = codeMarker
        · rw [hm] at h
          rw [stripHeader_of_codeMarker h, ih _ hlt _ rfl, hc, dropHeaders.eq_2, if_neg hb,
            if_pos hm]
        · rw [stripHeader_of_not_header h hb hm, hc, dropHeaders, if_neg hb, if_neg hm]

/-- The pieces before the first whose line fails `p`, blank lines never failing, have the
content before the first line that fails `p`. -/
theorem contentLines_takeWhile_pieces (p : Text → Bool) (hp : p []) (t : Text) :
  contentLines ((pieces t).takeWhile fun piece => p (trim piece)).flatten
    = (contentLines t).takeWhile p
  := by
  induction t using line_induction with
  | line l hl =>
    by_cases hne : l = []
    · subst hne
      rfl
    rw [pieces_line hl hne, List.takeWhile_cons]
    by_cases hb : isBlankLine l
    · rw [(trim_eq_nil_iff l).mpr hb, if_pos hp, List.takeWhile_nil, List.flatten_singleton,
        contentLines_of_isBlankLine hb]
      rfl
    · rw [contentLines_of_not_isBlankLine hl hb, List.takeWhile_cons]
      split
      · rw [List.takeWhile_nil, List.flatten_singleton, contentLines_of_not_isBlankLine hl hb]
        rfl
      · rfl
  | cut l t hl ih =>
    rw [pieces_append_break hl, List.takeWhile_cons, trim_append_blank l isBlankLine_break,
      contentLines_append_break]
    by_cases hb : isBlankLine l
    · rw [(trim_eq_nil_iff l).mpr hb, if_pos hp, contentLines_of_isBlankLine hb,
        List.flatten_cons, List.append_assoc, List.singleton_append, contentLines_append_break,
        contentLines_of_isBlankLine hb, List.nil_append, List.nil_append, ih]
    · rw [contentLines_of_not_isBlankLine hl hb, List.singleton_append, List.takeWhile_cons]
      split
      · rw [List.flatten_cons, List.append_assoc, List.singleton_append,
          contentLines_append_break, contentLines_of_not_isBlankLine hl hb, ih,
          List.singleton_append]
      · rfl

/-- The content before a section is the content up to its marker. -/
theorem contentLines_truncateSections (t : Text) :
  contentLines (truncateSections t)
    = (contentLines t).takeWhile fun line => !sectionMarkers.contains line
  := contentLines_takeWhile_pieces (fun line => !sectionMarkers.contains line) (by decide) t

/-- The content of the code of a cartridge is its content without header lines, up to the
first marker of a section. -/
theorem contentLines_code (t : Text) :
  contentLines (code t)
    = (dropHeaders (contentLines t)).takeWhile fun line => !sectionMarkers.contains line
  := by
  rw [code, contentLines_truncateSections, contentLines_stripHeader]

/-! ### Nothing after a section -/

theorem dropFirstIf_append {p : Text → Bool} {marker : Text} (h : ¬ p marker)
    (ls rest : List Text) :
  dropFirstIf p (ls ++ marker :: rest) = dropFirstIf p ls ++ marker :: rest
  := by
  cases ls with
  | nil => exact if_neg h
  | cons line ls =>
    rw [List.cons_append, dropFirstIf, dropFirstIf]
    split <;> rfl

/-- Header lines are not looked for behind the marker of a section. -/
theorem dropHeaders_append {marker : Text} (h : marker ∈ sectionMarkers) (ls rest : List Text) :
  dropHeaders (ls ++ marker :: rest) = dropHeaders ls ++ marker :: rest
  := by
  have plain : ∀ m ∈ sectionMarkers, ¬ isBanner m ∧ ¬ isVersion m ∧ m ≠ codeMarker := by decide
  obtain ⟨hb, hv, hm⟩ := plain marker h
  fun_induction dropHeaders ls with
  | case1 =>
    rw [List.nil_append, dropHeaders, if_neg hb, if_neg hm]
  | case2 line ls hline ih =>
    rw [List.cons_append, dropHeaders, if_pos hline, dropFirstIf_append hv, ih]
  | case3 ls hline ih =>
    rw [List.cons_append, dropHeaders, if_neg hline, if_pos rfl, ih]
  | case4 line ls hline hne =>
    rw [List.cons_append, dropHeaders, if_neg hline, if_neg hne]

/-- A line with the marker of a section, and all that follows it, adds nothing to the code. -/
theorem contentLines_code_append_marker {marker v w : Text} (h : marker ∈ sectionMarkers)
    (hv : isBlankLine v) (hw : isBlankLine w) (body tail : Text) :
  contentLines (code (body ++ '\n' :: (v ++ marker ++ w) ++ '\n' :: tail))
    = contentLines (code body)
  := by
  have line : ∀ m ∈ sectionMarkers, contentLines m = [m] := by decide
  have hmarker : contentLines (v ++ marker ++ w) = [marker] := by
    rw [contentLines_append_blank _ hw, contentLines_blank_append hv, line marker h]
  rw [contentLines_code, contentLines_code, contentLines_append_break, contentLines_append_break,
    hmarker, List.append_assoc, List.singleton_append, dropHeaders_append h,
    List.takeWhile_append, List.takeWhile_cons_of_neg (by simpa using h), List.append_nil]
  split
  · rename_i hlen
    exact ((List.takeWhile_prefix _).eq_of_length hlen).symm
  · rfl

end Cartridge

end CartTokens
