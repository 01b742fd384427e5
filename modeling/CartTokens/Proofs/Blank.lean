import CartTokens.Proofs.Quotation

/-!
# Blanks between tokens

A blank ends every lexeme as the end of the text does, except for a string without a closing
mark, which goes on and takes the blank with it.  So a text is scanned as its two parts before and
after a blank, exactly if the first part does not end in such a string (`scan_append_blank_iff`).
-/

namespace CartTokens

/-- The token is a string without a closing mark. -/
structure Raw.Unterminated (r : Raw) : Prop where
  shape_eq : r.shape = .string
  text_ne : ∀ quote body, Lexeme.StringBody quote body → r.text ≠ quote :: (body ++ [quote])

namespace Lexeme

/-! ### Strings left open -/

theorem takeString_ne_nil (quote : Char) {t : Text} (h : t ≠ []) :
  (takeString quote t).1 ≠ []
  := by
  fun_cases takeString quote t with
  | case1 => exact absurd rfl h
  | case2 d cs => apply List.cons_ne_nil
  | case3 cs => apply List.cons_ne_nil
  | case4 c cs => apply List.cons_ne_nil

/-- A string without a closing mark goes on into the text that is put after it. -/
theorem StringTail.exists_longer {quote : Char} {t : Text} (h : StringTail quote t [])
    (hopen : ∀ body, StringBody quote body → t ≠ body ++ [quote]) {rest : Text}
    (hrest : rest ≠ []) :
  ∃ u, u ≠ [] ∧ (takeString quote (t ++ rest)).1 = t ++ u
  := by
  cases h with
  | closed ht => exact absurd rfl (hopen _ ht)
  | unclosed ht =>
    use (takeString quote rest).1, takeString_ne_nil quote hrest
    rw [ht.takeString_append]
  | cutEscape ht =>
    obtain ⟨c, rest, rfl⟩ := List.exists_cons_of_ne_nil hrest
    use c :: (takeString quote rest).1, List.cons_ne_nil _ _
    rw [List.append_assoc, ht.takeString_append, List.singleton_append, takeString,
      List.append_assoc, List.singleton_append]

/-- A raw token that is a string is that of a string. -/
theorem exists_string_of_mem_raws {l : Lexeme} {r : Raw} (hr : r ∈ l.raws)
    (hshape : r.shape = .string) :
  ∃ t, l = .string t ∧ r = ⟨.string, t⟩
  := by
  cases l with
  | blank c => exact absurd hr List.not_mem_nil
  | dots n =>
    rw [raws] at hr
    split at hr
    · exact absurd hr List.not_mem_nil
    · obtain ⟨k, -, rfl⟩ := List.mem_map.mp hr
      exact Shape.noConfusion hshape
  | name t =>
    obtain rfl := List.mem_singleton.mp hr
    exact Shape.noConfusion hshape
  | number t =>
    obtain rfl := List.mem_singleton.mp hr
    exact Shape.noConfusion hshape
  | string t => use t, rfl, List.mem_singleton.mp hr
  | single c =>
    obtain rfl := List.mem_singleton.mp hr
    exact Shape.noConfusion hshape

theorem cut_quote_cons {quote : Char} (hquote : isQuote quote) (t : Text) :
  cut (quote :: t) = .string (quote :: (takeString quote t).1) :: cut (takeString quote t).2
  := by
  rw [cut, first, if_neg (ne_dot_of_isQuote hquote), if_pos hquote]

/-- A lexeme is left open exactly if it has a raw token without a closing mark. -/
theorem Maximal.closed_iff {l : Lexeme} {rest : Text} (h : l.Maximal rest) :
  l.Closed ↔ ∀ r ∈ l.raws, ¬ r.Unterminated
  := by
  constructor
  · intro hclosed r hr hopen
    obtain ⟨t, rfl, rfl⟩ := exists_string_of_mem_raws hr hopen.shape_eq
    obtain ⟨quote, t, rfl⟩ := List.exists_cons_of_ne_nil h.text_ne_nil
    obtain ⟨body, hbody, rfl⟩ := hclosed quote t rfl
    exact hopen.text_ne quote body hbody rfl
  · rintro hnone quote t rfl
    by_contra hopen
    apply hnone _ List.mem_cons_self
    constructor
    case shape_eq => rfl
    case text_ne =>
      rintro quote' body hbody heq
      obtain ⟨rfl, rfl⟩ := List.cons.inj heq
      exact hopen ⟨body, hbody, rfl⟩

theorem IsCut.of_append_left {before after : List Lexeme} (h : IsCut (before ++ after)) :
  IsCut before
  := by
  rintro before' l after' rfl
  have hl := h before' l (after' ++ after) (by simp)
  rw [List.flatMap_append] at hl
  apply hl.of_append

/-- Before another lexeme no string is left open. -/
theorem IsCut.closed_of_append_cons {before after : List Lexeme} {l : Lexeme}
    (h : IsCut (before ++ l :: after)) :
  ∀ k ∈ before, k.Closed
  := by
  intro k hk
  obtain ⟨front, back, rfl⟩ := List.append_of_mem hk
  have hl := h (front ++ k :: back) l after rfl
  apply (h front k (back ++ l :: after) (by simp)).closed
  rw [List.flatMap_append, List.flatMap_cons]
  apply List.append_ne_nil_of_right_ne_nil
  apply List.append_ne_nil_of_left_ne_nil hl.text_ne_nil

/-- Text put after a last lexeme that is a string has no part in how the text before that string
is cut. -/
theorem cut_append_of_string {a : Text} {before : List Lexeme} {quote : Char} {t : Text}
    (h : cut a = before ++ [.string (quote :: t)]) (hquote : isQuote quote) (rest : Text) :
  cut (a ++ rest) = before ++ cut (quote :: (t ++ rest))
  := by
  have hcut := isCut_cut a
  rw [h] at hcut
  have hbefore : cut (before.flatMap text) = before := cut_flatMap_text hcut.of_append_left
  have hclosed : ∀ l ∈ cut (before.flatMap text), l.Closed := by
    rw [hbefore]
    apply hcut.closed_of_append_cons
  have hsep : ∀ c ∈ (quote :: (t ++ rest)).head?, Separates c := by
    simpa using separates_of_isQuote hquote
  have htext : a = before.flatMap text ++ quote :: t := by
    rw [← flatMap_text_cut a, h, List.flatMap_append, List.flatMap_singleton, text]
  rw [htext, List.append_assoc, List.cons_append, cut_append hclosed hsep, hbefore]

/-- A raw token without a closing mark is that of the last lexeme. -/
theorem exists_cut_of_unterminated {a : Text} {r : Raw} (hr : r ∈ scan a)
    (hopen : r.Unterminated) :
  ∃ before quote t, cut a = before ++ [.string (quote :: t)] ∧ r = ⟨.string, quote :: t⟩
    ∧ isQuote quote ∧ StringTail quote t []
  := by
  obtain ⟨l, hl, hrl⟩ := List.mem_flatMap.mp hr
  obtain ⟨before, after, hbefore⟩ := List.append_of_mem hl
  have hcut := isCut_cut a
  rw [hbefore] at hcut
  have hmax := hcut before l after rfl
  obtain rfl : after = [] := by
    cases after with
    | nil => rfl
    | cons k after =>
      have hk := hcut (before ++ [l]) k after (by simp)
      have hclosed := hmax.closed (List.append_ne_nil_of_left_ne_nil hk.text_ne_nil _)
      exact absurd hopen (hmax.closed_iff.mp hclosed r hrl)
  obtain ⟨t, rfl, rfl⟩ := exists_string_of_mem_raws hrl hopen.shape_eq
  obtain _ | _ | _ | _ | _ | @⟨quote, t, _, hquote, htail⟩ | _ := hmax
  use before, quote, t, hbefore, rfl, hquote, htail

end Lexeme

/-! ### Texts with a blank in them -/

/-- A blank after which the tokens go on as in a text of their own. -/
theorem scan_append_blank {a : Text} (ha : ∀ r ∈ (scan a).getLast?, ¬ r.Unterminated) {c : Char}
    (hc : isBlank c) (b : Text) :
  scan (a ++ c :: b) = scan a ++ scan b
  := by
  have hcut := Lexeme.isCut_cut a
  have hlast : ∀ l ∈ (Lexeme.cut a).getLast?, l.Closed := by
    intro l hl
    obtain ⟨before, hbefore⟩ := List.getLast?_eq_some_iff.mp hl
    rw [(hcut before l [] hbefore).closed_iff]
    intro r hr hopen
    obtain ⟨t, rfl, rfl⟩ := Lexeme.exists_string_of_mem_raws hr hopen.shape_eq
    apply ha _ _ hopen
    rw [scan, hbefore, List.flatMap_append, List.flatMap_singleton, Lexeme.raws,
      List.getLast?_concat, Option.mem_def]
  rw [scan, Lexeme.cut_append_blank (hcut.closed hlast) hc, List.flatMap_append, List.flatMap_cons]
  rfl

/-- A string without a closing mark takes some of what follows with it. -/
theorem scan_append_ne {a : Text} {r : Raw} (hr : r ∈ scan a) (hopen : r.Unterminated)
    {rest : Text} (hrest : rest ≠ []) (ts : List Raw) :
  scan (a ++ rest) ≠ scan a ++ ts
  := by
  obtain ⟨before, quote, t, hcut, rfl, hquote, htail⟩ :=
    Lexeme.exists_cut_of_unterminated hr hopen
  have hunclosed : ∀ body, Lexeme.StringBody quote body → t ≠ body ++ [quote] := by
    rintro body hbody rfl
    exact hopen.text_ne quote body hbody rfl
  obtain ⟨u, hu, hlonger⟩ := htail.exists_longer hunclosed hrest
  intro heq
  rw [scan, scan, Lexeme.cut_append_of_string hcut hquote, Lexeme.cut_quote_cons hquote, hlonger,
    hcut, List.flatMap_append, List.flatMap_append, List.append_assoc, List.append_right_inj,
    List.flatMap_cons, List.flatMap_cons] at heq
  have htext : quote :: (t ++ u) = quote :: t := congrArg Raw.text (List.cons.inj heq).1
  exact hu (List.append_right_eq_self.mp (List.cons.inj htext).2)

/-- A text with a blank in it is scanned as the text before the blank and the text after it,
exactly if the text before it does not end in a string without a closing mark. -/
theorem scan_append_blank_iff (a b : Text) {c : Char} (hc : isBlank c) :
  scan (a ++ [c] ++ b) = scan a ++ scan b ↔ ∀ r ∈ (scan a).getLast?, ¬ r.Unterminated
  := by
  rw [List.append_assoc, List.singleton_append]
  constructor
  · intro heq r hr hopen
    apply scan_append_ne (List.mem_of_getLast? hr) hopen (List.cons_ne_nil c b) _ heq
  · intro ha
    apply scan_append_blank ha hc

/-- The escaped mark in the string before the blank does not close it, and the string after the
blank is left open. -/
theorem scan_append_blank_iff_escaped :
  isBlank '\uFE0F' ∧ (∀ r ∈ (scan "0x.'\\''".toList).getLast?, ¬ r.Unterminated)
    ∧ scan ("0x.'\\''".toList ++ ['\uFE0F'] ++ "8'y".toList)
      = scan "0x.'\\''".toList ++ scan "8'y".toList
  := by
  have hblank : isBlank '\uFE0F' := by decide
  have hlast : (scan "0x.'\\''".toList).getLast? = some ⟨.string, "'\\''".toList⟩ := by
    decide +kernel
  have hclosed : ∀ r ∈ (scan "0x.'\\''".toList).getLast?, ¬ r.Unterminated := by
    rw [hlast]
    rintro r hr hopen
    cases Option.mem_def.mp hr
    exact hopen.text_ne '\'' "\\'".toList (.escaped '\'' .nil) rfl
  exact ⟨hblank, hclosed, (scan_append_blank_iff _ _ hblank).mpr hclosed⟩

end CartTokens
