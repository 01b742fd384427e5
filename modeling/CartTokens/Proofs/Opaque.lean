import CartTokens.Proofs.Kind
import Mathlib.Data.List.Forall2

/-!
# Strings are opaque

What stands in a string has no part in what a line costs.  Two texts of tokens are similar if they
are equal or both strings (`Similar`).  Strings do not come together with other tokens, so merging
lists of similar texts gives lists of similar texts (`forall₂_merge`), and lines whose tokens are
similar cost the same (`Line.count_eq_of_similar`).
-/

namespace CartTokens

/-- The same text, or two strings. -/
def Similar (a b : Text) : Prop := a = b ∨ isString a ∧ isString b

theorem Similar.refl (a : Text) :
  Similar a a
  := .inl rfl

theorem forall₂_similar_refl (ts : List Text) :
  List.Forall₂ Similar ts ts
  := by
  apply List.forall₂_same.mpr
  exact fun t _ => .refl t

/-- What is the same for all strings is the same for texts that are similar. -/
theorem Similar.congr {β : Type} {f : Text → β} {v : β} (hf : ∀ t, isString t → f t = v)
    {a b : Text} (h : Similar a b) :
  f a = f b
  := by
  obtain rfl | ⟨ha, hb⟩ := h
  · rfl
  · rw [hf a ha, hf b hb]

theorem Similar.eq_of_not_isString {a b : Text} (h : Similar a b) (ha : ¬ isString a) :
  a = b
  := by
  obtain rfl | ⟨hstring, -⟩ := h
  · rfl
  · contradiction

/-! ### Strings among tokens -/

/-- A string begins with a quotation mark. -/
theorem isString_iff (t : Text) :
  isString t ↔ ∃ quote u, isQuote quote ∧ t = quote :: u
  := by
  cases t with
  | nil => simp [isString]
  | cons c u => simp [isString]

theorem ofText_of_isString {t : Text} (h : isString t) :
  Kind.ofText t = .string
  := by
  obtain ⟨quote, u, hquote, rfl⟩ := (isString_iff t).mp h
  obtain _ | _ | ⟨hkind⟩ := sound_string hquote u
  exact hkind

theorem not_isNumber_of_isString {t : Text} (h : isString t) :
  ¬ isNumber t
  := by
  rw [← Kind.ofText_eq_number_iff, ofText_of_isString h]
  exact Kind.noConfusion

theorem not_isPlainNumber_of_isString {t : Text} (h : isString t) :
  ¬ isPlainNumber t
  := by
  obtain ⟨quote, u, hquote, rfl⟩ := (isString_iff t).mp h
  intro hplain
  rw [isPlainNumber, Bool.and_eq_true, List.all_cons, Bool.and_eq_true] at hplain
  apply not_isQuote_of_isNameChar (isNameChar_of_isDigit hplain.2.1) hquote

theorem not_isGlyphRun_of_isString {t : Text} (h : isString t) :
  ¬ isGlyphRun t
  := by
  obtain ⟨quote, u, hquote, rfl⟩ := (isString_iff t).mp h
  intro hrun
  have hglyph := ((isGlyphRun_iff _).mp hrun).2 quote List.mem_cons_self
  apply not_isQuote_of_isNameChar _ hquote
  apply isNameChar_of_isNameStart (isNameStart_of_isGlyph hglyph)

/-- A list of texts none of which is a string holds no string. -/
theorem contains_of_isString {ws : List Text} (hws : ws.all fun w => !isString w) (t : Text)
    (h : isString t) :
  ws.contains t = false
  := by
  rw [Bool.eq_false_iff]
  intro hmem
  rw [List.contains_iff_mem] at hmem
  have hnot := List.all_eq_true.mp hws t hmem
  rw [h] at hnot
  contradiction

/-- No compound operator has a quotation mark in it. -/
theorem not_isCompound_of_mem {a b : Text} {quote : Char} (hquote : isQuote quote)
    (h : quote ∈ a ++ b) :
  isCompound a b = false
  := by
  have hsigns : ∀ w ∈ compounds, w.all fun c => !isQuote c := by decide
  rw [Bool.eq_false_iff]
  intro hcompound
  rw [isCompound, List.contains_iff_mem] at hcompound
  have hnot := List.all_eq_true.mp (hsigns _ hcompound) quote h
  rw [hquote] at hnot
  contradiction

theorem isCompound_of_isString_left {a : Text} (h : isString a) (b : Text) :
  isCompound a b = false
  := by
  obtain ⟨quote, u, hquote, rfl⟩ := (isString_iff a).mp h
  apply not_isCompound_of_mem hquote List.mem_cons_self

theorem isCompound_of_isString_right (a : Text) {b : Text} (h : isString b) :
  isCompound a b = false
  := by
  obtain ⟨quote, u, hquote, rfl⟩ := (isString_iff b).mp h
  apply not_isCompound_of_mem hquote
  apply List.mem_append_right a List.mem_cons_self

theorem isCompound_congr {a a' b b' : Text} (ha : Similar a a') (hb : Similar b b') :
  isCompound a b = isCompound a' b'
  := by
  rw [ha.congr fun t ht => isCompound_of_isString_left ht b,
    hb.congr fun t ht => isCompound_of_isString_right a' ht]

theorem Similar.isPlainNumber_eq {a b : Text} (h : Similar a b) :
  isPlainNumber a = isPlainNumber b
  := h.congr fun _ ht => Bool.eq_false_iff.mpr (not_isPlainNumber_of_isString ht)

theorem Similar.decide_eq {a b w : Text} (h : Similar a b) (hw : ¬ isString w) :
  decide (a = w) = decide (b = w)
  := by
  apply h.congr (v := false)
  intro t ht
  apply decide_eq_false
  rintro rfl
  contradiction

theorem Similar.contains_eq {a b : Text} (h : Similar a b) {ws : List Text}
    (hws : ws.all fun w => !isString w) :
  ws.contains a = ws.contains b
  := h.congr (contains_of_isString hws)

/-! ### Merging -/

section

variable {prev prev' : Option Text} {a a' : Text} {ts ts' : List Text} (ha : Similar a a')
  (hts : List.Forall₂ Similar ts ts')

include ha hts

/-- As many tokens come together in lists of similar texts. -/
theorem fused_congr
    (hprev : prev.any signContexts.contains = prev'.any signContexts.contains) :
  fused prev a ts = fused prev' a' ts'
  := by
  cases hts with
  | nil => rfl
  | @cons b b' rest rest' hb hrest =>
    have hnext : rest.head?.any isPlainNumber = rest'.head?.any isPlainNumber := by
      cases hrest with
      | nil => rfl
      | cons hc _ => apply hc.isPlainNumber_eq
    have hnumber : isNumber b = isNumber b' :=
      hb.congr fun _ ht => Bool.eq_false_iff.mpr (not_isNumber_of_isString ht)
    have hsign : (b.head? != some '-') = (b'.head? != some '-') := by
      apply hb.congr (f := fun t => t.head? != some '-') (v := true)
      intro t ht
      obtain ⟨quote, u, hquote, rfl⟩ := (isString_iff t).mp ht
      rw [List.head?_cons, bne_iff_ne, Ne, Option.some.injEq]
      rintro rfl
      contradiction
    rw [fused, fused, hb.decide_eq (by decide), ha.isPlainNumber_eq, hnext,
      isCompound_congr ha hb, ha.decide_eq (by decide), hnumber, hsign, hprev]

/-- Tokens that come together with others are no strings, so groups of similar texts are similar. -/
theorem Fusion.similar_flatten {n : Nat} (h : Fusion prev a ts n) :
  Similar (a :: ts.take n).flatten (a' :: ts'.take n).flatten
  := by
  cases h with
  | alone rest => simpa using ha
  | @compound b hcompound rest =>
    cases hts with
    | @cons _ b' _ rest' hb _ =>
      have haq : ¬ isString a := by
        intro hstring
        rw [isCompound_of_isString_left hstring] at hcompound
        contradiction
      have hbq : ¬ isString b := by
        intro hstring
        rw [isCompound_of_isString_right a hstring] at hcompound
        contradiction
      rw [ha.eq_of_not_isString haq, hb.eq_of_not_isString hbq]
      apply Similar.refl
  | @signed b hminus hnumber _ _ rest =>
    cases hts with
    | @cons _ b' _ rest' hb _ =>
      have hbq : ¬ isString b := fun hstring => not_isNumber_of_isString hstring hnumber
      subst hminus
      rw [← ha.eq_of_not_isString (by decide), hb.eq_of_not_isString hbq]
      apply Similar.refl
  | @fraction b hplain hplain' rest =>
    cases hts with
    | @cons _ b' _ rest' hb hrest =>
      cases hrest with
      | @cons _ c _ _ hc _ =>
        have haq : ¬ isString a := fun hstring => not_isPlainNumber_of_isString hstring hplain
        have hcq : ¬ isString b := fun hstring => not_isPlainNumber_of_isString hstring hplain'
        rw [ha.eq_of_not_isString haq, ← hb.eq_of_not_isString (by decide),
          hc.eq_of_not_isString hcq]
        apply Similar.refl

end

/-- Lists of similar texts fall into groups that are similar. -/
theorem forall₂_groups {ts ts' : List Text} (hts : List.Forall₂ Similar ts ts')
    {prev prev' : Option Text}
    (hprev : prev.any signContexts.contains = prev'.any signContexts.contains) :
  List.Forall₂ (fun group group' => Similar group.flatten group'.flatten) (groups prev ts)
    (groups prev' ts')
  := by
  fun_induction groups prev ts generalizing ts' prev' with
  | case1 =>
    cases hts
    rw [groups]
    exact .nil
  | case2 prev a rest ih =>
    cases hts with
    | @cons _ a' _ rest' ha hrest =>
      have hgroup := (fusion_fused prev a rest).similar_flatten ha hrest
      rw [groups, ← fused_congr ha hrest hprev]
      refine .cons hgroup (ih (List.forall₂_drop _ hrest) ?_)
      apply hgroup.contains_eq (by decide)

/-- Merging lists of similar texts gives lists of similar texts. -/
theorem forall₂_merge {ts ts' : List Text} (hts : List.Forall₂ Similar ts ts') :
  List.Forall₂ Similar (merge ts) (merge ts')
  := by
  rw [merge, merge, List.forall₂_map_left_iff, List.forall₂_map_right_iff]
  apply forall₂_groups hts rfl

/-! ### Lines -/

theorem eq_of_forall₂_similar {ts ts' : List Text} (h : List.Forall₂ Similar ts ts')
    (hnot : ∀ t ∈ ts, ¬ isString t) :
  ts = ts'
  := by
  induction h with
  | nil => rfl
  | cons ha _ ih =>
    rw [List.forall_mem_cons] at hnot
    rw [ha.eq_of_not_isString hnot.1, ih hnot.2]

theorem all_isGlyphRun_eq {ts ts' : List Text} (h : List.Forall₂ Similar ts ts') :
  ts.all isGlyphRun = ts'.all isGlyphRun
  := by
  induction h with
  | nil => rfl
  | cons ha _ ih =>
    rw [List.all_cons, List.all_cons, ih,
      ha.congr fun _ ht => Bool.eq_false_iff.mpr (not_isGlyphRun_of_isString ht)]

theorem sum_weight_eq {ts ts' : List Text} (h : List.Forall₂ Similar ts ts') :
  (((ts.filter fun t => !structural.contains t).map Token.ofText).map Token.weight).sum
    = (((ts'.filter fun t => !structural.contains t).map Token.ofText).map Token.weight).sum
  := by
  induction h with
  | nil => rfl
  | @cons a a' ts ts' ha _ ih =>
    have hweight : (Token.ofText a).weight = (Token.ofText a').weight := by
      apply ha.congr (f := fun t => (Token.ofText t).weight) (v := 1)
      intro t ht
      rw [Token.weight, Token.ofText, ofText_of_isString ht]
      rfl
    rw [List.filter_cons, List.filter_cons, ha.contains_eq (by decide)]
    split
    · simp only [List.map_cons, List.sum_cons, hweight, ih]
    · exact ih

namespace Line

/-- Tokens that are all glyphs are no strings, so similar tokens stay similar when collapsed. -/
theorem forall₂_collapse {rs rs' : List Raw}
    (h : List.Forall₂ Similar (rs.map Raw.text) (rs'.map Raw.text)) :
  List.Forall₂ Similar ((collapse rs).map Raw.text) ((collapse rs').map Raw.text)
  := by
  have hall : (rs.all fun r => isGlyphRun r.text) = rs'.all fun r => isGlyphRun r.text := by
    have hglyphs := all_isGlyphRun_eq h
    rwa [List.all_map, List.all_map] at hglyphs
  have hlength : rs.length = rs'.length := by
    simpa using h.length_eq
  rw [collapse, collapse, hall, hlength]
  split
  · rename_i hcollapse
    rw [Bool.and_eq_true, ← hall, List.all_eq_true] at hcollapse
    have heq : rs.map Raw.text = rs'.map Raw.text := by
      apply eq_of_forall₂_similar h
      intro t ht hstring
      obtain ⟨r, hr, rfl⟩ := List.mem_map.mp ht
      apply not_isGlyphRun_of_isString hstring (hcollapse.2 r hr)
    rw [List.flatMap_def, List.flatMap_def, heq]
    exact .cons (.refl _) .nil
  · exact h

/-- Lines whose raw tokens are similar cost the same. -/
theorem count_eq_of_similar {l l' : Text}
    (h : List.Forall₂ Similar ((scan (code l)).map Raw.text) ((scan (code l')).map Raw.text)) :
  count l = count l'
  := by
  rw [count, count, tokens, tokens, merged, merged, raws_eq_collapse, raws_eq_collapse]
  apply sum_weight_eq
  apply forall₂_merge
  apply forall₂_collapse h

end Line

end CartTokens
