import CartTokens.Proofs.Kind

/-!
# Lines of glyphs

Blanks, variation selectors and single dots cut a line of glyphs into any number of names, which
are put together again.  A lexeme of such a line is a blank, a single dot or a run of glyphs
(`Lexeme.Glyphic`).  That all lexemes of a text are of this kind can be read off its raw tokens,
which are then runs of glyphs (`Lexeme.forall_glyphic_iff_scan`), and off its characters
(`Lexeme.forall_glyphic_iff`).  Hence a line is one name of glyphs exactly if its code is glyphs
with blanks and single dots between them (`Line.raws_glyphs_iff`).
-/

namespace CartTokens

/-! ### Runs of glyphs -/

/-- A text of glyphs has the kind of glyphs: it is in no word list and reads as nothing else. -/
theorem ofText_of_isGlyphRun {t : Text} (h : isGlyphRun t) :
  t ∉ vocabulary ∧ Kind.ofText t = .glyphs
  := by
  have hwords : ∀ w ∈ vocabulary, ¬ isGlyphRun w := by decide +kernel
  have hsigns : ∀ c ∈ glyphs, c ≠ '-' ∧ c ≠ '.' ∧ ¬ isDigit c ∧ ¬ isQuote c :=
    forall_mem_of_all (by decide)
  have hmem : t ∉ vocabulary := fun hmem => hwords t hmem h
  obtain ⟨hne, hglyphs⟩ := (isGlyphRun_iff t).mp h
  obtain ⟨c, u, rfl⟩ := List.exists_cons_of_ne_nil hne
  have hc := hglyphs c List.mem_cons_self
  rw [isGlyph, List.contains_iff_mem] at hc
  obtain ⟨hminus, hdot, hdigit, hquote⟩ := hsigns c hc
  have hnumber := not_isNumber_cons hminus hdot hdigit u
  have hstring : ¬ isString (c :: u) := hquote
  use hmem
  rw [Kind.ofText_of_not_mem_vocabulary hne hmem, if_neg hnumber, if_neg hstring, if_pos h]

/-- Among the raw tokens only names can be runs of glyphs. -/
theorem Raw.Sound.shape_of_isGlyphRun {r : Raw} (h : r.Sound) (hrun : isGlyphRun r.text) :
  r.shape = .identifier
  := by
  obtain ⟨-, hglyphs⟩ := ofText_of_isGlyphRun hrun
  cases h with
  | identifier _ _ => rfl
  | number _ _ hkind =>
    rw [hkind] at hglyphs
    contradiction
  | string hkind =>
    rw [hkind] at hglyphs
    contradiction
  | @dots n hpos _ =>
    have hdot : '.' ∈ List.replicate n '.' := List.mem_replicate.mpr ⟨by omega, rfl⟩
    exact absurd (((isGlyphRun_iff _).mp hrun).2 '.' hdot) (by decide)
  | single _ hkind =>
    rw [hglyphs] at hkind
    contradiction

namespace Lexeme

/-- A lexeme of a line of glyphs. -/
inductive Glyphic : Lexeme → Prop where
  | blank {c : Char} (hc : isBlank c) : Glyphic (.blank c)
  | dot : Glyphic (.dots 1)
  | name {t : Text} (ht : isGlyphRun t) : Glyphic (.name t)

/-! ### The raw tokens of lines of glyphs -/

section

variable {l : Lexeme}

theorem Glyphic.of_mem_raws (h : l.Glyphic) {r : Raw} (hr : r ∈ l.raws) :
  r.shape = .identifier ∧ isGlyphRun r.text
  := by
  cases h with
  | blank _ => contradiction
  | dot => contradiction
  | name ht =>
    obtain rfl := List.mem_singleton.mp hr
    use rfl, ht

theorem Maximal.glyphic_of_raws {rest : Text} (h : l.Maximal rest)
    (hraws : ∀ r ∈ l.raws, isGlyphRun r.text) :
  l.Glyphic
  := by
  have hshape : ∀ r ∈ l.raws, r.shape = .identifier :=
    fun r hr => (h.sound r hr).shape_of_isGlyphRun (hraws r hr)
  cases h with
  | blank hc => apply Glyphic.blank hc
  | @dots n _ _ =>
    obtain _ | n := n
    · apply Glyphic.dot
    · obtain ⟨k, ks, -, hks⟩ := exists_dotChunks_eq_cons (n := n + 2) (by omega)
      rw [raws, if_neg (by omega), hks] at hshape
      apply Shape.noConfusion (hshape _ List.mem_cons_self)
  | name _ _ _ => apply Glyphic.name (hraws _ (List.mem_singleton_self _))
  | decimal _ _ _ _ => apply Shape.noConfusion (hshape _ (List.mem_singleton_self _))
  | radix _ _ _ => apply Shape.noConfusion (hshape _ (List.mem_singleton_self _))
  | string _ _ => apply Shape.noConfusion (hshape _ (List.mem_singleton_self _))
  | single _ => apply Shape.noConfusion (hshape _ (List.mem_singleton_self _))

/-! ### The characters of lines of glyphs -/

theorem isGlyph_of_isNameChar {c : Char} (hname : isNameChar c)
    (h : isGlyph c ∨ isBlank c ∨ c = '.') :
  isGlyph c
  := by
  obtain hglyph | hblank | hdot := h
  · apply hglyph
  · exact absurd hblank (not_isBlank_of_isNameChar hname)
  · exact absurd hdot (ne_dot_of_isNameChar hname)

theorem Maximal.glyphic_of_text {rest : Text} (h : l.Maximal rest)
    (hchars : ∀ c ∈ l.text, isGlyph c ∨ isBlank c ∨ c = '.') (hdots : ¬ ['.', '.'] <:+: l.text) :
  l.Glyphic
  := by
  cases h with
  | blank hc => apply Glyphic.blank hc
  | @dots n _ _ =>
    obtain _ | n := n
    · apply Glyphic.dot
    · exact absurd ⟨[], List.replicate n '.', rfl⟩ hdots
  | @name c t _ hc ht _ =>
    have hnames : ∀ d ∈ c :: t, isNameChar d :=
      List.forall_mem_cons.mpr ⟨isNameChar_of_isNameStart hc, ht⟩
    apply Glyphic.name
    rw [isGlyphRun_iff]
    use List.cons_ne_nil c t
    intro d hd
    apply isGlyph_of_isNameChar (hnames d hd) (hchars d hd)
  | @decimal d _ _ hd _ _ _ =>
    have hglyph := isGlyph_of_isNameChar (isNameChar_of_isDigit hd) (hchars d List.mem_cons_self)
    exact absurd (isNameStart_of_isGlyph hglyph) (not_isNameStart_of_isDigit hd)
  | radix _ _ _ => exact absurd (hchars '0' List.mem_cons_self) (by decide)
  | @string quote _ _ hquote _ =>
    obtain hglyph | hblank | hdot := hchars quote List.mem_cons_self
    · have hname := isNameChar_of_isNameStart (isNameStart_of_isGlyph hglyph)
      exact absurd hquote (not_isQuote_of_isNameChar hname)
    · exact absurd hblank (not_isBlank_of_isQuote hquote)
    · exact absurd hdot (ne_dot_of_isQuote hquote)
  | @single c _ hc =>
    obtain hglyph | hblank | hdot := hchars c List.mem_cons_self
    · exact absurd (isNameStart_of_isGlyph hglyph) hc.not_nameStart
    · exact absurd hblank hc.not_blank
    · exact absurd hdot hc.not_dot

theorem Glyphic.of_mem_text (h : l.Glyphic) {c : Char} (hc : c ∈ l.text) :
  isGlyph c ∨ isBlank c ∨ c = '.'
  := by
  cases h with
  | blank hblank =>
    obtain rfl := List.mem_singleton.mp hc
    exact .inr (.inl hblank)
  | dot => exact .inr (.inr (List.mem_singleton.mp hc))
  | name ht => exact .inl (((isGlyphRun_iff _).mp ht).2 c hc)

theorem Glyphic.not_dots (h : l.Glyphic) :
  ¬ ['.', '.'] <:+: l.text
  := by
  cases h with
  | blank _ => exact fun hdots => Nat.not_succ_le_self 1 hdots.length_le
  | dot => exact fun hdots => Nat.not_succ_le_self 1 hdots.length_le
  | name ht =>
    intro hdots
    have hglyph := ((isGlyphRun_iff _).mp ht).2 '.' (hdots.subset List.mem_cons_self)
    contradiction

/-- The names of a line of glyphs hold its glyphs. -/
theorem Glyphic.flatMap_text_raws (h : l.Glyphic) :
  l.raws.flatMap Raw.text = l.text.filter isGlyph
  := by
  cases h with
  | blank hc =>
    have hglyph : ¬ isGlyph _ := fun hglyph =>
      not_isBlank_of_isNameChar (isNameChar_of_isNameStart (isNameStart_of_isGlyph hglyph)) hc
    rw [text, List.filter_singleton, Bool.eq_false_iff.mpr hglyph]
    rfl
  | dot => rfl
  | name ht =>
    rw [raws, List.flatMap_singleton, text, List.filter_eq_self.mpr ((isGlyphRun_iff _).mp ht).2]

end

/-! ### Lexemes of a text -/

theorem not_isInfix_pair_iff (c : Char) (t : Text) :
  ¬ [c, c] <:+: t ↔ t.IsChain fun a b => a = c → b ≠ c
  := by
  constructor
  · intro h
    apply (List.isChain_isInfix t).imp
    rintro a b hab rfl rfl
    apply h hab
  · intro h hpair
    have hstep := List.IsChain.infix h hpair
    apply List.isChain_pair.mp hstep rfl rfl

/-- Two dots side by side belong to one lexeme. -/
theorem IsCut.not_dots {ls : List Lexeme} (h : IsCut ls)
    (hls : ∀ l ∈ ls, ¬ ['.', '.'] <:+: l.text) :
  ¬ ['.', '.'] <:+: ls.flatMap text
  := by
  induction ls with
  | nil => exact fun hdots => absurd hdots.length_le (by decide)
  | cons l ls ih =>
    rw [isCut_cons] at h
    rw [List.forall_mem_cons] at hls
    rw [List.flatMap_cons, not_isInfix_pair_iff, List.isChain_append, ← not_isInfix_pair_iff,
      ← not_isInfix_pair_iff]
    refine ⟨hls.1, ih h.2 hls.2, ?_⟩
    rintro a ha b hb rfl rfl
    obtain ⟨rest, hrest⟩ := List.head?_eq_some_iff.mp hb
    have hl := h.1
    rw [hrest] at hl
    apply hl.getLast?_text_ne_dot ha

/-- The lexemes of a text are those of a line of glyphs if its raw tokens are runs of glyphs. -/
theorem forall_glyphic_iff_scan (t : Text) :
  (∀ l ∈ cut t, l.Glyphic) ↔ ∀ r ∈ scan t, isGlyphRun r.text
  := by
  constructor
  · intro h r hr
    obtain ⟨l, hl, hraw⟩ := List.mem_flatMap.mp hr
    exact ((h l hl).of_mem_raws hraw).2
  · intro h l hl
    obtain ⟨-, rest, -, hmax⟩ := exists_eq_append_of_mem_cut hl
    apply hmax.glyphic_of_raws
    intro r hr
    apply h r (List.mem_flatMap.mpr ⟨l, hl, hr⟩)

/-- The lexemes of a text are those of a line of glyphs if it holds glyphs, blanks and dots only,
no two dots side by side. -/
theorem forall_glyphic_iff (t : Text) :
  (∀ l ∈ cut t, l.Glyphic)
    ↔ (∀ c ∈ t, isGlyph c ∨ isBlank c ∨ c = '.') ∧ ¬ ['.', '.'] <:+: t
  := by
  constructor
  · intro h
    rw [← flatMap_text_cut t]
    constructor
    · intro c hc
      obtain ⟨l, hl, hcl⟩ := List.mem_flatMap.mp hc
      apply (h l hl).of_mem_text hcl
    · apply (isCut_cut t).not_dots
      intro l hl
      apply (h l hl).not_dots
  · rintro ⟨hchars, hdots⟩ l hl
    obtain ⟨before, rest, htext, hmax⟩ := exists_eq_append_of_mem_cut hl
    have hpart : l.text <:+: t := by
      use before, rest
      rw [List.append_assoc, ← htext]
    apply hmax.glyphic_of_text
    · intro c hc
      apply hchars c (hpart.subset hc)
    · intro htwo
      apply hdots (htwo.trans hpart)

/-- The raw tokens of a line of glyphs hold its glyphs in their order. -/
theorem flatMap_text_scan_of_glyphic {t : Text} (h : ∀ l ∈ cut t, l.Glyphic) :
  (scan t).flatMap Raw.text = t.filter isGlyph
  := by
  nth_rewrite 2 [← flatMap_text_cut t]
  rw [scan, List.flatMap_assoc, List.filter_flatMap]
  apply List.flatMap_congr
  intro l hl
  apply (h l hl).flatMap_text_raws

end Lexeme

/-! ### Lines -/

/-- Glyphs with blanks and single dots between them, at least one glyph among them. -/
structure GlyphLine (t : Text) : Prop where
  glyph : ∃ c ∈ t, isGlyph c
  chars : ∀ c ∈ t, isGlyph c ∨ isBlank c ∨ c = '.'
  dots : ¬ ['.', '.'] <:+: t

theorem GlyphLine.glyphic {t : Text} (h : GlyphLine t) :
  ∀ l ∈ Lexeme.cut t, l.Glyphic
  := (Lexeme.forall_glyphic_iff t).mpr ⟨h.chars, h.dots⟩

theorem GlyphLine.isGlyphRun_filter {t : Text} (h : GlyphLine t) :
  isGlyphRun (t.filter isGlyph)
  := by
  obtain ⟨c, hc, hglyph⟩ := h.glyph
  rw [isGlyphRun_iff]
  constructor
  · apply List.ne_nil_of_mem (List.mem_filter.mpr ⟨hc, hglyph⟩)
  · intro d hd
    exact (List.mem_filter.mp hd).2

theorem merge_singleton (t : Text) :
  merge [t] = [t]
  := by
  rw [merge, groups, List.take_nil, List.drop_nil, groups]
  simp

namespace Line

/-- Names that are runs of glyphs become one name, also if there is only one. -/
theorem collapse_of_glyphs {ts : List Raw} (hne : ts ≠ [])
    (h : ∀ r ∈ ts, r.shape = .identifier ∧ isGlyphRun r.text) :
  collapse ts = [⟨.identifier, ts.flatMap Raw.text⟩]
  := by
  unfold collapse
  split
  · rfl
  · rename_i hnot
    have hall : ts.all fun r => isGlyphRun r.text :=
      List.all_eq_true.mpr fun r hr => (h r hr).2
    rw [hall, Bool.and_true, decide_eq_true_eq] at hnot
    have hpos := List.length_pos_iff.mpr hne
    obtain ⟨⟨shape, t⟩, rfl⟩ := List.length_eq_one_iff.mp (by omega : ts.length = 1)
    obtain rfl : shape = .identifier := (h _ (List.mem_singleton_self _)).1
    rw [List.flatMap_singleton]

theorem forall_isGlyphRun_of_collapse {ts : List Raw} {t : Text} (ht : isGlyphRun t)
    (h : collapse ts = [⟨.identifier, t⟩]) :
  ∀ r ∈ ts, isGlyphRun r.text
  := by
  unfold collapse at h
  split at h
  · rename_i hall
    rw [Bool.and_eq_true, List.all_eq_true] at hall
    apply hall.2
  · rw [h, List.forall_mem_singleton]
    apply ht

/-- The glyphs of a line of glyphs are one name. -/
theorem raws_of_glyphLine {line : Text} (h : GlyphLine (code line)) :
  raws line = [⟨.identifier, (code line).filter isGlyph⟩]
  := by
  have htext := Lexeme.flatMap_text_scan_of_glyphic h.glyphic
  have hne : scan (code line) ≠ [] := by
    intro hnil
    rw [hnil] at htext
    apply ((isGlyphRun_iff _).mp h.isGlyphRun_filter).1 htext.symm
  rw [raws_eq_collapse, collapse_of_glyphs hne, htext]
  intro r hr
  obtain ⟨l, hl, hraw⟩ := List.mem_flatMap.mp hr
  apply (h.glyphic l hl).of_mem_raws hraw

/-- A line that is one name of glyphs is a line of glyphs. -/
theorem glyphLine_of_raws {line t : Text} (ht : ∀ c ∈ t, isGlyph c)
    (h : raws line = [⟨.identifier, t⟩]) :
  GlyphLine (code line)
  := by
  have hsound : Raw.Sound ⟨.identifier, t⟩ := by
    apply sound_of_mem_raws line
    rw [h]
    apply List.mem_singleton_self
  have hne : t ≠ [] := hsound.text_ne_nil
  rw [raws_eq_collapse] at h
  have hscan := forall_isGlyphRun_of_collapse ((isGlyphRun_iff t).mpr ⟨hne, ht⟩) h
  rw [← Lexeme.forall_glyphic_iff_scan] at hscan
  obtain ⟨hchars, hdots⟩ := (Lexeme.forall_glyphic_iff _).mp hscan
  refine ⟨?_, hchars, hdots⟩
  have htext : t = (code line).filter isGlyph := by
    have hall := flatMap_text_collapse (scan (code line))
    rwa [h, List.flatMap_singleton, Lexeme.flatMap_text_scan_of_glyphic hscan] at hall
  obtain ⟨c, hc⟩ := List.exists_mem_of_ne_nil t hne
  rw [htext, List.mem_filter] at hc
  use c, hc.1, hc.2

/-- One name of glyphs is one token. -/
theorem count_of_isGlyphRun {line t : Text} {shape : Shape} (ht : isGlyphRun t)
    (h : raws line = [⟨shape, t⟩]) :
  count line = 1
  := by
  obtain ⟨hmem, hkind⟩ := ofText_of_isGlyphRun ht
  have hfree : t ∉ structural := by
    intro hstructural
    apply hmem
    simp [vocabulary, hstructural]
  rw [count, tokens, merged, h, List.map_singleton, merge_singleton]
  simp [hfree, Token.weight, Token.ofText, hkind, Kind.weight]

/-- A line is one name of glyphs exactly if its code is glyphs with blanks and single dots
between them.  That name is all the glyphs in their order, and the line costs one token. -/
theorem raws_glyphs_iff (line : Text) :
  ((∃ t : Text, (∀ c ∈ t, isGlyph c) ∧ raws line = [⟨.identifier, t⟩]) ↔ GlyphLine (code line))
    ∧ (GlyphLine (code line) →
      raws line = [⟨.identifier, (code line).filter isGlyph⟩] ∧ count line = 1)
  := by
  refine ⟨⟨?_, ?_⟩, ?_⟩
  · rintro ⟨t, ht, h⟩
    apply glyphLine_of_raws ht h
  · intro h
    use (code line).filter isGlyph, ((isGlyphRun_iff _).mp h.isGlyphRun_filter).2
    apply raws_of_glyphLine h
  · intro h
    use raws_of_glyphLine h
    apply count_of_isGlyphRun h.isGlyphRun_filter (raws_of_glyphLine h)

end Line

end CartTokens
