import CartTokens.Proofs.Lexeme
import CartTokens.Proofs.Line
import Mathlib.Data.List.Chain

/-!
# Raw tokens

The raw tokens of a line are its code without blanks and single dots, and the code is cut into
maximal lexemes in one way only (`Line.existsUnique_cutInto`).

A run of dots is cut into chunks; a chunk of one dot comes only after one of three or four
dots (`isChain_scan`).
-/

namespace CartTokens

namespace Lexeme

/-! ### Dots between lexemes -/

/-- A lexeme before a dot does not end in a dot. -/
theorem Maximal.getLast?_text_ne_dot {l : Lexeme} {rest : Text}
    (h : l.Maximal ('.' :: rest)) :
  l.text.getLast? ≠ some '.'
  := by
  cases h with
  | blank hc =>
    rw [text, List.getLast?_singleton, Ne, Option.some.injEq]
    exact ne_dot_of_isBlank hc
  | dots hrest => exact absurd rfl (stopsAt_cons.mp hrest)
  | @name c t _ hc ht _ =>
    intro hlast
    have hmem : '.' ∈ c :: t := List.mem_of_getLast? hlast
    have hname : ∀ d ∈ c :: t, isNameChar d :=
      List.forall_mem_cons.mpr ⟨isNameChar_of_isNameStart hc, ht⟩
    exact ne_dot_of_isNameChar (hname '.' hmem) rfl
  | decimal _ _ hrest _ => exact absurd rfl (stopsAt_cons.mp hrest)
  | radix _ _ hrest => exact absurd rfl (stopsAt_cons.mp hrest)
  | string hquote ht =>
    cases ht with
    | closed _ _ =>
      rw [text, ← List.cons_append, List.getLast?_append, List.getLast?_singleton, Option.some_or,
        Ne, Option.some.injEq]
      exact ne_dot_of_isQuote hquote
  | single hc =>
    rw [text, List.getLast?_singleton, Ne, Option.some.injEq]
    exact hc.not_dot

/-- A run of dots in a cut has no dot before it or after it. -/
theorem IsCut.isolated {before after : List Lexeme} {n : Nat}
    (h : IsCut (before ++ .dots n :: after)) :
  (before.flatMap text).getLast? ≠ some '.' ∧ (after.flatMap text).head? ≠ some '.'
  := by
  obtain _ | @⟨n, -, hrest⟩ := h before (.dots n) after rfl
  constructor
  · cases before using List.reverseRecOn with
    | nil => simp
    | append_singleton before l =>
      have hl := h before l (.dots (n + 1) :: after) (by simp)
      rw [List.flatMap_append, List.flatMap_singleton,
        List.getLast?_append_of_ne_nil _ hl.text_ne_nil]
      exact hl.getLast?_text_ne_dot
  · intro hhead
    exact hrest '.' hhead rfl

/-! ### Chunks of dots -/

/-- A chunk of one dot has a chunk of three or four dots before it. -/
theorem isChain_threes {k : Nat} (hk : k = 3 ∨ k = 4) (n : Nat) :
  (k :: threes n).IsChain fun a b => b = 1 → a = 3 ∨ a = 4
  := by
  fun_induction threes n generalizing k with
  | case1 => exact .singleton k
  | case2 => exact .cons_cons (fun _ => hk) (.singleton 1)
  | case3 => exact .cons_cons (fun h => absurd h (by decide)) (.singleton 2)
  | case4 n ih => exact .cons_cons (fun h => absurd h (by decide)) (ih (.inl rfl))

theorem isChain_dotChunks (n : Nat) :
  (dotChunks n).IsChain fun a b => b = 1 → a = 3 ∨ a = 4
  := by
  unfold dotChunks
  split
  · exact .singleton n
  · exact isChain_threes (.inr rfl) (n - 4)

/-- The first chunk of a run has at least two dots. -/
theorem exists_dotChunks_eq_cons {n : Nat} (hn : 2 ≤ n) :
  ∃ (k : Nat) (ks : List Nat), 2 ≤ k ∧ dotChunks n = k :: ks
  := by
  unfold dotChunks
  split
  · exact ⟨n, [], hn, rfl⟩
  · exact ⟨4, threes (n - 4), by decide, rfl⟩

theorem mem_threes {n k : Nat} (h : k ∈ threes n) :
  1 ≤ k ∧ k ≤ 3
  := by
  fun_induction threes n with
  | case1 => contradiction
  | case2 =>
    obtain rfl := List.mem_singleton.mp h
    decide
  | case3 =>
    obtain rfl := List.mem_singleton.mp h
    decide
  | case4 n ih =>
    obtain rfl | h := List.mem_cons.mp h
    · decide
    · apply ih h

/-- The sizes of chunks are at least one and at most four. -/
theorem mem_dotChunks {n k : Nat} (hn : 2 ≤ n) (h : k ∈ dotChunks n) :
  1 ≤ k ∧ k ≤ 4
  := by
  unfold dotChunks at h
  split at h
  · rw [List.mem_singleton] at h
    omega
  · obtain rfl | h := List.mem_cons.mp h
    · decide
    · obtain ⟨hpos, hle⟩ := mem_threes h
      omega

/-- A chunk that is a single dot has size one. -/
theorem eq_one_of_text_chunk {k : Nat} (h : (chunk k).text = ['.']) :
  k = 1
  := by
  have hlength : (List.replicate k '.').length = 1 := congrArg List.length h
  rwa [List.length_replicate] at hlength

end Lexeme

/-- Three dots or four dots. -/
def dotRuns : List Text := ["...", "...."].map String.toList

/-- A single dot comes only after three or four dots. -/
def DotAfterDots (a b : Text) : Prop :=
  b = ['.'] → a ∈ dotRuns

namespace Lexeme

theorem isChain_raws (l : Lexeme) :
  (l.raws.map Raw.text).IsChain DotAfterDots
  := by
  cases l with
  | blank c => exact .nil
  | dots n =>
    rw [raws]
    split
    · exact .nil
    · rw [List.map_map, List.isChain_map]
      apply (isChain_dotChunks n).imp
      intro a b hab hb
      obtain rfl | rfl := hab (eq_one_of_text_chunk hb)
      · decide
      · decide
  | name t => exact .singleton t
  | number t => exact .singleton t
  | string t => exact .singleton t
  | single c => exact .singleton [c]

/-- The first raw token of a lexeme is not a single dot. -/
theorem Maximal.head?_raws_ne_dot {l : Lexeme} {rest : Text} (h : l.Maximal rest) :
  (l.raws.map Raw.text).head? ≠ some ['.']
  := by
  cases h with
  | blank hc => simp [raws]
  | @dots n _ hrest =>
    rw [raws]
    split
    · simp
    · rename_i hn
      obtain ⟨k, ks, hk, hks⟩ := exists_dotChunks_eq_cons (n := n + 1) (by omega)
      rw [hks, List.map_cons, List.map_cons, List.head?_cons, Ne, Option.some.injEq]
      intro heq
      have hone := eq_one_of_text_chunk heq
      omega
  | name hc _ _ =>
    have := ne_dot_of_isNameChar (isNameChar_of_isNameStart hc)
    simp [raws, this]
  | decimal hd _ _ _ =>
    have := ne_dot_of_isNameChar (isNameChar_of_isDigit hd)
    simp [raws, this]
  | radix _ _ _ => simp [raws]
  | string hquote _ =>
    have := ne_dot_of_isQuote hquote
    simp [raws, this]
  | single hc => simp [raws, hc.not_dot]

theorem IsCut.head?_raws_ne_dot {ls : List Lexeme} (h : IsCut ls) :
  ((ls.flatMap raws).map Raw.text).head? ≠ some ['.']
  := by
  induction ls with
  | nil => simp
  | cons l ls ih =>
    rw [isCut_cons] at h
    rw [List.flatMap_cons, List.map_append, List.head?_append]
    have hhead := h.1.head?_raws_ne_dot
    cases hl : (l.raws.map Raw.text).head? with
    | none => exact ih h.2
    | some t =>
      rw [hl] at hhead
      exact hhead

theorem IsCut.isChain_raws {ls : List Lexeme} (h : IsCut ls) :
  ((ls.flatMap raws).map Raw.text).IsChain DotAfterDots
  := by
  induction ls with
  | nil => exact .nil
  | cons l ls ih =>
    rw [isCut_cons] at h
    rw [List.flatMap_cons, List.map_append, List.isChain_append]
    refine ⟨l.isChain_raws, ih h.2, ?_⟩
    rintro a - b hb rfl
    exact absurd hb h.2.head?_raws_ne_dot

end Lexeme

/-- In the raw tokens of a text a single dot comes only after three or four dots, and so never
comes first. -/
theorem isChain_scan (t : Text) :
  ([] :: (scan t).map Raw.text).IsChain DotAfterDots
  := by
  have hcut := Lexeme.isCut_cut t
  rw [List.isChain_cons]
  constructor
  · rintro b hb rfl
    exact absurd hb hcut.head?_raws_ne_dot
  · exact hcut.isChain_raws

/-! ### Raw tokens of lines -/

namespace Line

theorem isGlyphRun_flatMap {ts : List Raw} (hne : ts ≠ [])
    (h : ∀ r ∈ ts, isGlyphRun r.text) :
  isGlyphRun (ts.flatMap Raw.text)
  := by
  rw [isGlyphRun_iff]
  constructor
  · obtain ⟨r, ts, rfl⟩ := List.exists_cons_of_ne_nil hne
    have hr := h r List.mem_cons_self
    rw [isGlyphRun_iff] at hr
    rw [List.flatMap_cons]
    exact List.append_ne_nil_of_left_ne_nil hr.1 _
  · intro c hc
    obtain ⟨r, hr, hcr⟩ := List.mem_flatMap.mp hc
    exact ((isGlyphRun_iff _).mp (h r hr)).2 c hcr

/-- Tokens stay as they are unless they are all glyphs; then they become one name. -/
theorem collapse_cases (ts : List Raw) :
  collapse ts = ts ∨ ∃ t : Text, isGlyphRun t ∧ collapse ts = [⟨.identifier, t⟩]
  := by
  unfold collapse
  split
  · rename_i h
    rw [Bool.and_eq_true, decide_eq_true_eq, List.all_eq_true] at h
    right
    refine ⟨ts.flatMap Raw.text, ?_, rfl⟩
    apply isGlyphRun_flatMap _ h.2
    rintro rfl
    exact absurd h.1 (by decide)
  · exact .inl rfl

/-- A line has no raw tokens, those of its code, or one name made of glyphs. -/
theorem raws_cases (line : Text) :
  raws line = scan (code line) ∨ ∃ t : Text, isGlyphRun t ∧ raws line = [⟨.identifier, t⟩]
  := by
  rw [raws_eq_collapse]
  apply collapse_cases

/-- Every raw token of a line is one of a maximal lexeme. -/
theorem exists_maximal_of_mem_raws {line : Text} {r : Raw} (hr : r ∈ raws line) :
  ∃ (l : Lexeme) (rest : Text), l.Maximal rest ∧ r ∈ l.raws
  := by
  rcases raws_cases line with h | ⟨t, ht, h⟩
  · rw [h] at hr
    obtain ⟨l, hl, hraw⟩ := List.mem_flatMap.mp hr
    obtain ⟨-, rest, -, hmax⟩ := Lexeme.exists_eq_append_of_mem_cut hl
    use l, rest, hmax
  · rw [h] at hr
    use .name t, [], Lexeme.maximal_name (isName_of_isGlyphRun ht)
    exact hr

/-- In the raw tokens of a line a single dot comes only after three or four dots. -/
theorem isChain_raws (line : Text) :
  ([] :: (raws line).map Raw.text).IsChain DotAfterDots
  := by
  rcases raws_cases line with h | ⟨t, ht, h⟩
  · rw [h]
    apply isChain_scan
  · rw [h]
    apply List.IsChain.cons_cons _ (.singleton t)
    rintro rfl
    contradiction

theorem flatMap_text_collapse (ts : List Raw) :
  (collapse ts).flatMap Raw.text = ts.flatMap Raw.text
  := by
  unfold collapse
  split
  · rw [List.flatMap_singleton]
  · rfl

/-- The pieces are a cut of the code of the line, and the raw tokens are read off them. -/
structure CutInto (line : Text) (pieces : List Lexeme) : Prop where
  join : pieces.flatMap Lexeme.text = code line
  maximal : ∀ before piece after, pieces = before ++ piece :: after →
    piece.Maximal (after.flatMap Lexeme.text)
  isolated : ∀ before after n, pieces = before ++ .dots n :: after →
    (before.flatMap Lexeme.text).getLast? ≠ some '.'
      ∧ (after.flatMap Lexeme.text).head? ≠ some '.'
  scanned : pieces.flatMap Lexeme.raws = scan (code line)
  complete : ∀ piece ∈ pieces, piece.raws.flatMap Raw.text
    = if piece.isSkipped then [] else piece.text
  texts : (raws line).flatMap Raw.text
    = (pieces.filter fun piece => !piece.isSkipped).flatMap Lexeme.text

/-- The code of a line is cut in exactly one way into maximal lexemes, the raw tokens are those
of the lexemes, and nothing but blanks and single dots is left out. -/
theorem existsUnique_cutInto {line : Text} (h : ¬ isIdle line) :
  ∃! pieces, CutInto line pieces
  := by
  use Lexeme.cut (code line)
  constructor
  · have hcut := Lexeme.isCut_cut (code line)
    constructor
    case join => exact Lexeme.flatMap_text_cut _
    case maximal => exact hcut
    case isolated =>
      intro before after n heq
      rw [heq] at hcut
      exact hcut.isolated
    case scanned => rfl
    case complete => exact fun piece _ => piece.flatMap_text_raws
    case texts =>
      rw [raws, if_neg h, flatMap_text_collapse, scan, Lexeme.flatMap_text_flatMap_raws]
  · intro pieces hpieces
    exact ((Lexeme.cut_eq_iff _ _).mpr ⟨hpieces.join, hpieces.maximal⟩).symm

theorem existsUnique_cutInto_assignment :
  ¬ isIdle "x.y..=0x.8\\'a\\'.b-- c".toList
    ∧ ∃! pieces, CutInto "x.y..=0x.8\\'a\\'.b-- c".toList pieces
  := ⟨by decide, existsUnique_cutInto (by decide)⟩

end Line

end CartTokens
