import CartTokens.Proofs.Count

/-!
# Headers in front of a cartridge

A block of header lines is a banner with a version line or a code marker or both below it, or
a code marker alone.  White space may stand around each line, and blank lines before it.  Put
in front of any text, such blocks are taken off again, and they have no part in the count
(`headers_neutral`).
-/

namespace CartTokens

open Text Cartridge

/-! ### Header lines -/

/-- The text of a banner: a fixed beginning, and anything after it. -/
def BannerText (line : Text) : Prop :=
  ∃ rest : Text, line = "pico-8 cartridge".toList ++ rest

/-- The text of a version line: a word, white space or nothing, and digits. -/
def VersionText (line : Text) : Prop :=
  ∃ space digits : Text, isBlankLine space ∧ digits ≠ [] ∧ (∀ c ∈ digits, c.isDigit)
    ∧ line = "version".toList ++ (space ++ digits)

/-- A line whose text satisfies `p`, with its line break and white space on both sides; the
white space before it may hold blank lines. -/
inductive PaddedLine (p : Text → Prop) : Text → Prop where
  | mk {v line w : Text} (hline : p line) (hone : '\n' ∉ line) (hv : isBlankLine v)
      (hw : isBlankLine w) (hend : '\n' ∉ w) : PaddedLine p (v ++ line ++ w ++ ['\n'])

/-- A block of header lines. -/
inductive HeaderBlock : Text → Prop where
  | full {b v m : Text} (hb : PaddedLine BannerText b) (hv : PaddedLine VersionText v)
      (hm : PaddedLine (· = codeMarker) m) : HeaderBlock (b ++ v ++ m)
  | unversioned {b m : Text} (hb : PaddedLine BannerText b)
      (hm : PaddedLine (· = codeMarker) m) : HeaderBlock (b ++ m)
  | unmarked {b v : Text} (hb : PaddedLine BannerText b) (hv : PaddedLine VersionText v) :
      HeaderBlock (b ++ v)
  | bare {m : Text} (hm : PaddedLine (· = codeMarker) m) : HeaderBlock m

theorem isBanner_trim {line : Text} (h : BannerText line) :
  isBanner (trim line)
  := by
  obtain ⟨rest, rfl⟩ := h
  rw [trim_append (by decide) (by decide), isBanner, startsWith,
    (after?_eq_some_iff _ _ _).mpr rfl]
  rfl

theorem not_isSpace_of_isDigit {c : Char} (h : c.isDigit) :
  ¬ isSpace c
  := by
  have hcode : 48 ≤ c.toNat ∧ c.toNat ≤ 57 := Char.isDigit_iff_toNat.mp h
  simp only [isSpace, spaceRanges, CodeRange.contains, List.any_cons, List.any_nil,
    Bool.or_eq_true, Bool.and_eq_true, decide_eq_true_eq, Bool.false_eq_true,
    or_false]
  omega

theorem isVersion_trim {line : Text} (h : VersionText line) :
  isVersion (trim line)
  := by
  obtain ⟨space, digits, hspace, hne, hdigits, rfl⟩ := h
  have hsolid : ∀ c ∈ digits, ¬ isSpace c := fun c hc => not_isSpace_of_isDigit (hdigits c hc)
  have hend : dropEndWhile isSpace (space ++ digits) = space ++ digits := by
    rw [dropEndWhile_append, dropEndWhile_eq_self hsolid, if_neg (by simpa using hne)]
  have htrim : trim (space ++ digits) = digits := by
    rw [trim_blank_append hspace, trim_eq_self hsolid]
  have hafter : after? "version".toList (trim ("version".toList ++ (space ++ digits)))
      = some (space ++ digits) := by
    rw [trim_append (by decide) (by decide), hend, after?_eq_some_iff]
  rw [isVersion, hafter]
  simp only [htrim]
  simpa [hne] using hdigits

/-- A line with white space around it and blank lines before it is the first line. -/
theorem firstLine?_padded {v line w : Text} (hv : isBlankLine v) (hone : '\n' ∉ line)
    (hline : ¬ isBlankLine line) (hw : isBlankLine w) (hend : '\n' ∉ w) (body : Text) :
  firstLine? (pieces (v ++ line ++ w ++ '\n' :: body)) = some (trim line, body)
  := by
  induction v using line_induction with
  | line l hl =>
    have hall : '\n' ∉ l ++ line ++ w := by simp [hl, hone, hend]
    have hblank : ¬ isBlankLine (l ++ line ++ w) := by simp [hline]
    rw [firstLine?_append_break hall, if_neg hblank, trim_append_blank _ hw,
      trim_blank_append hv]
  | cut l v hl ih =>
    rw [isBlankLine_append_break] at hv
    have hshape : l ++ '\n' :: v ++ line ++ w ++ '\n' :: body
        = l ++ '\n' :: (v ++ line ++ w ++ '\n' :: body) := by simp
    rw [hshape, firstLine?_append_break hl, if_pos hv.1, ih hv.2]

/-- The first line of a text behind a padded line is that line, trimmed. -/
theorem PaddedLine.firstLine?_append {p : Text → Prop} {q : Text → Bool}
    (hpq : ∀ line, p line → q (trim line)) (hq : ¬ q []) {s : Text} (h : PaddedLine p s)
    (body : Text) :
  ∃ line : Text, q line ∧ firstLine? (pieces (s ++ body)) = some (line, body)
  := by
  obtain @⟨v, line, w, hline, hone, hv, hw, hend⟩ := h
  have hblank : ¬ isBlankLine line := by
    intro hb
    have hnil := hpq line hline
    rw [(trim_eq_nil_iff line).mpr hb] at hnil
    contradiction
  use trim line, hpq line hline
  rw [List.append_assoc, List.singleton_append]
  exact firstLine?_padded hv hone hblank hw hend body

/-! ### Taking headers off -/

theorem stripHeader_banner_append {b : Text} (h : PaddedLine BannerText b) (body : Text) :
  stripHeader (b ++ body) = stripHeader (dropLineIf isVersion body)
  := by
  obtain ⟨line, hb, hfirst⟩ := h.firstLine?_append (fun _ => isBanner_trim) (by decide) body
  exact stripHeader_of_isBanner hfirst hb

theorem dropLineIf_version_append {v : Text} (h : PaddedLine VersionText v) (body : Text) :
  dropLineIf isVersion (v ++ body) = body
  := by
  obtain ⟨line, hv, hfirst⟩ := h.firstLine?_append (fun _ => isVersion_trim) (by decide) body
  rw [dropLineIf_of_firstLine?_eq_some hfirst, if_pos hv]

theorem firstLine?_marker_append {m : Text} (h : PaddedLine (· = codeMarker) m) (body : Text) :
  firstLine? (pieces (m ++ body)) = some (codeMarker, body)
  := by
  have htrim : ∀ line : Text, line = codeMarker → trim line == codeMarker := by
    rintro _ rfl
    decide
  obtain ⟨line, hm, hfirst⟩ := h.firstLine?_append (q := (· == codeMarker)) htrim (by decide) body
  rw [hfirst, eq_of_beq hm]

theorem dropLineIf_version_marker_append {m : Text} (h : PaddedLine (· = codeMarker) m)
    (body : Text) :
  dropLineIf isVersion (m ++ body) = m ++ body
  := by
  rw [dropLineIf_of_firstLine?_eq_some (firstLine?_marker_append h body)]
  exact if_neg (by decide)

theorem stripHeader_marker_append {m : Text} (h : PaddedLine (· = codeMarker) m) (body : Text) :
  stripHeader (m ++ body) = stripHeader body
  := stripHeader_of_codeMarker (firstLine?_marker_append h body)

/-- A block of header lines in front of any text is taken off with the headers. -/
theorem HeaderBlock.stripHeader_append {h : Text} (hh : HeaderBlock h) (body : Text) :
  stripHeader (h ++ body) = stripHeader body
  := by
  cases hh with
  | full hb hv hm =>
    rw [List.append_assoc, List.append_assoc, stripHeader_banner_append hb,
      dropLineIf_version_append hv, stripHeader_marker_append hm]
  | unversioned hb hm =>
    rw [List.append_assoc, stripHeader_banner_append hb, dropLineIf_version_marker_append hm,
      stripHeader_marker_append hm]
  | unmarked hb hv =>
    rw [List.append_assoc, stripHeader_banner_append hb, dropLineIf_version_append hv]
  | bare hm => exact stripHeader_marker_append hm body

theorem stripHeader_flatten_append {blocks : List Text} (h : ∀ b ∈ blocks, HeaderBlock b)
    (body : Text) :
  stripHeader (blocks.flatten ++ body) = stripHeader body
  := by
  induction blocks with
  | nil => rfl
  | cons b blocks ih =>
    rw [List.forall_mem_cons] at h
    rw [List.flatten_cons, List.append_assoc, h.1.stripHeader_append, ih h.2]

/-- Any number of blocks of header lines in front of any text are taken off, and have no part
in the count. -/
theorem headers_neutral {blocks : List Text} (h : ∀ b ∈ blocks, HeaderBlock b) (body : Text) :
  stripHeader (blocks.flatten ++ body) = stripHeader body
    ∧ countText (blocks.flatten ++ body) = countText body
  := by
  have hstrip := stripHeader_flatten_append h body
  constructor
  · exact hstrip
  · apply countText_congr
    rw [code, hstrip, code]

theorem headers_neutral_before_graphics :
  (∀ b ∈ ["\n pico-8 cartridge // a\r\n\t\n version 36\n".toList,
      "pico-8 cartridge\n  __lua__ \n".toList], HeaderBlock b)
    ∧ stripHeader (["\n pico-8 cartridge // a\r\n\t\n version 36\n".toList,
        "pico-8 cartridge\n  __lua__ \n".toList].flatten ++ "version 2\n__gfx__\n".toList)
      = stripHeader "version 2\n__gfx__\n".toList
    ∧ countText (["\n pico-8 cartridge // a\r\n\t\n version 36\n".toList,
        "pico-8 cartridge\n  __lua__ \n".toList].flatten ++ "version 2\n__gfx__\n".toList)
      = countText "version 2\n__gfx__\n".toList
  := by
  have banner : ∀ rest : Text, BannerText ("pico-8 cartridge".toList ++ rest) :=
    fun rest => ⟨rest, rfl⟩
  have version : VersionText "version 36".toList :=
    ⟨[' '], ['3', '6'], rfl, by decide, List.all_eq_true.mp (by decide), rfl⟩
  have first : HeaderBlock "\n pico-8 cartridge // a\r\n\t\n version 36\n".toList :=
    .unmarked
      (.mk (v := ['\n', ' ']) (w := ['\r']) (banner " // a".toList) (by decide) rfl rfl
        (by decide))
      (.mk (v := ['\t', '\n', ' ']) (w := []) version (by decide) rfl rfl (by decide))
  have marker : PaddedLine (· = codeMarker) ([' ', ' '] ++ codeMarker ++ [' '] ++ ['\n']) :=
    .mk rfl (by decide) rfl rfl (by decide)
  have second : HeaderBlock "pico-8 cartridge\n  __lua__ \n".toList :=
    .unversioned (.mk (v := []) (w := []) (banner []) (by decide) rfl rfl (by decide)) marker
  have hall : ∀ b ∈ ["\n pico-8 cartridge // a\r\n\t\n version 36\n".toList,
      "pico-8 cartridge\n  __lua__ \n".toList], HeaderBlock b := by
    rw [List.forall_mem_cons, List.forall_mem_singleton]
    exact ⟨first, second⟩
  exact ⟨hall, headers_neutral hall _⟩

end CartTokens
