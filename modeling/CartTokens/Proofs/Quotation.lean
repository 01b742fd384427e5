import CartTokens.Proofs.Opaque
import CartTokens.Proofs.Rescan

/-!
# Strings in a line

A quotation mark separates, and what stands between two marks is one lexeme, unless it holds the
mark or a backslash (`Lexeme.cut_string`).  If it holds no mark of a comment either, the line around
the string is read in the same way whatever the string holds, and so the contents of strings have
no part in what a line costs (`Line.count_string_congr`).
-/

namespace CartTokens

open Text

/-- The text can stand between two quotation marks and ends neither the string nor the code. -/
structure Quotable (quote : Char) (t : Text) : Prop where
  not_quote : quote ∉ t
  not_escape : '\\' ∉ t
  not_comment : ∀ mark ∈ lineMarkers, ¬ mark <:+: t

/-! ### Lexemes -/

namespace Lexeme

/-- Only the last lexeme of a cut can be left open. -/
theorem IsCut.closed {ls : List Lexeme} (h : IsCut ls) (hlast : ∀ l ∈ ls.getLast?, l.Closed) :
  ∀ l ∈ ls, l.Closed
  := by
  intro l hl
  obtain ⟨before, after, rfl⟩ := List.append_of_mem hl
  cases after with
  | nil =>
    apply hlast
    rw [List.getLast?_concat, Option.mem_def]
  | cons l' after =>
    have hnext := h (before ++ [l]) l' after (by simp)
    apply (h before l (l' :: after) rfl).closed
    rw [List.flatMap_cons]
    apply List.append_ne_nil_of_left_ne_nil hnext.text_ne_nil

theorem stringBody_of_not_mem {quote : Char} {t : Text} (hquote : quote ∉ t)
    (hescape : '\\' ∉ t) :
  StringBody quote t
  := by
  induction t with
  | nil => exact .nil
  | cons c t ih =>
    rw [List.mem_cons, not_or] at hquote hescape
    exact .plain (Ne.symm hquote.1) (Ne.symm hescape.1) (ih hquote.2 hescape.2)

/-- What stands between two quotation marks is one lexeme, and what stands around it is cut as it
would be without the string. -/
theorem cut_string {p : Text} (hp : ∀ l ∈ cut p, l.Closed) {quote : Char}
    (hquote : isQuote quote) {t : Text} (ht : Quotable quote t) (r : Text) :
  cut (p ++ quote :: (t ++ quote :: r)) = cut p ++ .string (quote :: (t ++ [quote])) :: cut r
  := by
  have hbody := stringBody_of_not_mem ht.not_quote ht.not_escape
  have hstring : Maximal (.string (quote :: (t ++ [quote]))) r := .string hquote (.closed hbody r)
  have htext : quote :: (t ++ quote :: r) = (string (quote :: (t ++ [quote]))).text ++ r := by
    rw [text, List.cons_append, List.append_assoc, List.singleton_append]
  have hsep : ∀ c ∈ (quote :: (t ++ quote :: r)).head?, Separates c := by
    simpa using separates_of_isQuote hquote
  rw [cut_append hp hsep, htext, hstring.cut_append]

end Lexeme

theorem scan_blank_append {w : Text} (hw : isBlankLine w) (t : Text) :
  scan (w ++ t) = scan t
  := by
  induction w with
  | nil => rfl
  | cons c w ih =>
    rw [isBlankLine_iff, List.forall_mem_cons, ← isBlankLine_iff] at hw
    rw [List.cons_append, scan, Lexeme.cut_blank_cons (isBlank_of_isSpace hw.1),
      List.flatMap_cons, ← ih hw.2]
    rfl

/-- White space before a text has no part in its tokens; white space after it may belong to a
string left open. -/
theorem scan_trim (t : Text) :
  scan (trim t) = scan (dropEndWhile isSpace t)
  := by
  have hblank : isBlankLine (t.takeWhile isSpace) := by
    rw [isBlankLine_iff]
    exact fun c hc => List.mem_takeWhile_imp hc
  nth_rewrite 2 [← List.takeWhile_append_dropWhile (p := isSpace) (l := t)]
  rw [dropEndWhile_append, trim]
  split
  · rename_i hnil
    have hdrop := dropEndWhile_append_blank [] hblank
    rw [List.nil_append] at hdrop
    rw [hdrop, List.isEmpty_iff.mp hnil]
    rfl
  · rw [scan_blank_append hblank]

/-! ### Lines -/

namespace Line

theorem not_mem_lineMarkers_of_isQuote {quote : Char} (h : isQuote quote) :
  ∀ mark ∈ lineMarkers, quote ∉ mark
  := by
  obtain rfl | rfl := (isQuote_iff quote).mp h <;> decide

/-- A text in which no mark of a comment stands has no comment. -/
theorem stripComment_of_not_isInfix {t : Text} (h : ∀ mark ∈ lineMarkers, ¬ mark <:+: t) :
  stripComment t = t
  := by
  rw [stripComment_eq_self_iff]
  intro u hu hstart
  obtain ⟨mark, hmark, hmarked⟩ := (startsComment_iff u).mp hstart
  apply h mark hmark (hmarked.isInfix.trans hu.isInfix)

/-- The raw tokens of a line with a string in it are those of the text up to the comment, or the
white space, after the string. -/
theorem scan_code_string {p : Text} (hp : stripComment p = p) {quote : Char}
    (hquote : isQuote quote) {t : Text} (ht : Quotable quote t) (r : Text) :
  scan (code (p ++ quote :: (t ++ quote :: r)))
    = scan (p ++ quote :: (t ++ quote :: dropEndWhile isSpace (stripComment r)))
  := by
  have hmarks := not_mem_lineMarkers_of_isQuote hquote
  have hstrip : stripComment (p ++ quote :: (t ++ quote :: r))
      = p ++ quote :: (t ++ quote :: stripComment r) := by
    rw [stripComment_append_cons hmarks, if_pos hp, stripComment_append_cons hmarks,
      if_pos (stripComment_of_not_isInfix ht.not_comment)]
  have hsolid : ¬ isSpace quote :=
    fun hspace => not_isBlank_of_isQuote hquote (isBlank_of_isSpace hspace)
  rw [code, scan_trim, hstrip, dropEndWhile_append_cons hsolid, dropEndWhile_append_cons hsolid]

/-- What stands in a string has no part in what the line costs, if no string is left open before it
and it holds neither the quotation mark nor a backslash nor a mark of a comment. -/
theorem count_string_congr {p : Text} (hp : ∀ l ∈ (Lexeme.cut p).getLast?, l.Closed)
    {quote : Char} (hquote : isQuote quote) {s t : Text} (hs : Quotable quote s)
    (ht : Quotable quote t) (r : Text) :
  count (p ++ quote :: s ++ quote :: r) = count (p ++ quote :: t ++ quote :: r)
  := by
  rw [List.append_assoc, List.cons_append, List.append_assoc, List.cons_append]
  by_cases hcomment : stripComment p = p
  · have hclosed := (Lexeme.isCut_cut p).closed hp
    apply count_eq_of_similar
    rw [scan_code_string hcomment hquote hs, scan_code_string hcomment hquote ht, scan, scan,
      Lexeme.cut_string hclosed hquote hs, Lexeme.cut_string hclosed hquote ht]
    simp only [List.flatMap_append, List.flatMap_cons, List.map_append]
    apply List.rel_append (forall₂_similar_refl _)
    apply List.rel_append _ (forall₂_similar_refl _)
    exact .cons (.inr ⟨hquote, hquote⟩) .nil
  · -- the string stands in a comment
    have hmarks := not_mem_lineMarkers_of_isQuote hquote
    apply count_eq_of_code_eq
    rw [code, code, stripComment_append_cons hmarks, if_neg hcomment,
      stripComment_append_cons hmarks, if_neg hcomment]

/-- A backslash before the string escapes nothing, and brackets, numbers and the other quotation
mark in the string are no tokens. -/
theorem count_string_congr_brackets :
  (∀ l ∈ (Lexeme.cut "x='a'..\\".toList).getLast?, l.Closed) ∧ isQuote '\x22'
    ∧ Quotable '\x22' "end)]-9'".toList ∧ Quotable '\x22' []
    ∧ count ("x='a'..\\".toList ++ '\x22' :: "end)]-9'".toList ++ '\x22' :: "..y -- z".toList)
      = count ("x='a'..\\".toList ++ '\x22' :: [] ++ '\x22' :: "..y -- z".toList)
  := by
  have hcut : (Lexeme.cut "x='a'..\\".toList).getLast? = some (.single '\\') := by decide +kernel
  have hp : ∀ l ∈ (Lexeme.cut "x='a'..\\".toList).getLast?, l.Closed := by
    rw [hcut]
    rintro l hl quote t rfl
    cases Option.mem_def.mp hl
  have hs : Quotable '\x22' "end)]-9'".toList := ⟨by decide, by decide, by decide +kernel⟩
  have ht : Quotable '\x22' [] := ⟨by decide, by decide, by decide⟩
  exact ⟨hp, by decide, hs, ht, count_string_congr hp (by decide) hs ht _⟩

end Line

end CartTokens
