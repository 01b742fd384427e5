import CartTokens.Lexeme
import CartTokens.Proofs.Vocabulary
import Mathlib.Data.List.TakeWhile

/-!
# Lexemes are as long as they can be

`Lexeme.Maximal l rest` says what a lexeme `l` looks like and that it cannot be longer when
`rest` follows it.  A list of lexemes each of which is maximal before the text of those after
it satisfies `Lexeme.IsCut`, and such a list is what cutting its text gives
(`Lexeme.cut_eq_iff`).  Hence blanks and quotation marks separate: a text is cut as its two parts
are, if the second one begins with such a character and no string is left open in the first one
(`Lexeme.cut_append`).
-/

namespace CartTokens

namespace Lexeme

/-! ### Words -/

/-- The text does not begin with a character that satisfies `p`. -/
def StopsAt (p : Char → Bool) (rest : Text) : Prop :=
  ∀ c ∈ rest.head?, ¬ p c

theorem stopsAt_nil (p : Char → Bool) :
  StopsAt p []
  := by
  intro c hc
  contradiction

theorem stopsAt_cons {p : Char → Bool} {c : Char} {rest : Text} :
  StopsAt p (c :: rest) ↔ ¬ p c
  := by
  simp [StopsAt]

theorem stopsAt_dropWhile (p : Char → Bool) (t : Text) :
  StopsAt p (t.dropWhile p)
  := by
  intro c hc hp
  have hnot := List.head?_dropWhile_not p t
  rw [Option.mem_def.mp hc] at hnot
  simp [hp] at hnot

theorem StopsAt.append {p : Char → Bool} {s t : Text} (hs : StopsAt p s) (ht : StopsAt p t) :
  StopsAt p (s ++ t)
  := by
  cases s with
  | nil => exact ht
  | cons c s =>
    rw [stopsAt_cons] at hs
    rwa [List.cons_append, stopsAt_cons]

theorem StopsAt.of_append {p : Char → Bool} {s t : Text} (h : StopsAt p (s ++ t)) :
  StopsAt p s
  := by
  cases s with
  | nil => apply stopsAt_nil
  | cons c s => exact h

section

variable {p : Char → Bool} {t rest : Text} (ht : ∀ c ∈ t, p c) (hrest : StopsAt p rest)

include ht hrest

theorem takeWhile_append_of_stopsAt :
  (t ++ rest).takeWhile p = t
  := by
  rw [List.takeWhile_append_of_pos ht]
  cases rest with
  | nil => simp
  | cons c rest =>
    rw [stopsAt_cons] at hrest
    simp [hrest]

theorem dropWhile_append_of_stopsAt :
  (t ++ rest).dropWhile p = rest
  := by
  rw [List.dropWhile_append_of_pos ht]
  cases rest with
  | nil => rfl
  | cons c rest =>
    rw [stopsAt_cons] at hrest
    simp [hrest]

end

/-! ### Numbers -/

/-- A digit of the radix, one dot allowed before it. -/
def LeadsDigit (mark : Char) (t : Text) : Prop :=
  ∃ (d : Char) (u : Text), isRadixDigit mark d ∧ (t = d :: u ∨ t = '.' :: d :: u)

/-- The text begins with a number in another radix: zero, the mark of the radix and a digit. -/
def StartsRadix (t : Text) : Prop :=
  ∃ (mark : Char) (u : Text), LeadsDigit mark u ∧ t = '0' :: mark :: u

theorem LeadsDigit.mem_radixMarks {mark : Char} {t : Text} (h : LeadsDigit mark t) :
  mark ∈ radixMarks
  := by
  obtain ⟨d, -, hd, -⟩ := h
  exact mem_radixMarks_of_isRadixDigit hd

theorem radixMark?_eq_some_iff (c : Char) (cs : Text) (mark : Char) :
  radixMark? c cs = some mark ↔ c = '0' ∧ ∃ u : Text, LeadsDigit mark u ∧ cs = mark :: u
  := by
  constructor
  · intro h
    unfold radixMark? at h
    split at h
    · rename_i m d u
      rw [Option.ite_none_right_eq_some, Option.some.injEq] at h
      obtain ⟨hd, rfl⟩ := h
      exact ⟨rfl, '.' :: d :: u, ⟨d, u, hd, .inr rfl⟩, rfl⟩
    · rename_i m d u _
      rw [Option.ite_none_right_eq_some, Option.some.injEq] at h
      obtain ⟨hd, rfl⟩ := h
      exact ⟨rfl, d :: u, ⟨d, u, hd, .inl rfl⟩, rfl⟩
    · contradiction
  · rintro ⟨rfl, u, ⟨d, v, hd, rfl | rfl⟩, rfl⟩
    · have hdot : d ≠ '.' := ne_dot_of_isNameChar (isNameChar_of_isRadixDigit hd)
      unfold radixMark?
      split
      · simp_all
      · simp_all
      · simp_all
    · simp [radixMark?, hd]

theorem startsRadix_iff (c : Char) (cs : Text) :
  StartsRadix (c :: cs) ↔ radixMark? c cs ≠ none
  := by
  rw [Option.ne_none_iff_exists']
  constructor
  · rintro ⟨mark, u, hu, h⟩
    obtain ⟨rfl, rfl⟩ := List.cons.inj h
    exact ⟨mark, (radixMark?_eq_some_iff _ _ _).mpr ⟨rfl, u, hu, rfl⟩⟩
  · rintro ⟨mark, h⟩
    obtain ⟨rfl, u, hu, rfl⟩ := (radixMark?_eq_some_iff _ _ _).mp h
    exact ⟨mark, u, hu, rfl⟩

/-! ### Strings -/

/-- What stands between the marks of a string: any character after a backslash, and otherwise
no backslash and no mark. -/
inductive StringBody (quote : Char) : Text → Prop where
  | nil : StringBody quote []
  | escaped (d : Char) {t : Text} (h : StringBody quote t) : StringBody quote ('\\' :: d :: t)
  | plain {c : Char} {t : Text} (hquote : c ≠ quote) (hescape : c ≠ '\\')
      (h : StringBody quote t) : StringBody quote (c :: t)

/-- A string after its opening mark, and the text after the string.  The string ends at the
first mark that is not escaped.  If there is none it ends with the text, which may be in the
middle of an escape. -/
inductive StringTail (quote : Char) : Text → Text → Prop where
  | closed {t : Text} (ht : StringBody quote t) (rest : Text) :
      StringTail quote (t ++ [quote]) rest
  | unclosed {t : Text} (ht : StringBody quote t) : StringTail quote t []
  | cutEscape {t : Text} (ht : StringBody quote t) : StringTail quote (t ++ ['\\']) []

theorem StringTail.escaped {quote : Char} {t rest : Text} (d : Char)
    (h : StringTail quote t rest) :
  StringTail quote ('\\' :: d :: t) rest
  := by
  cases h with
  | closed ht => exact .closed (ht.escaped d) rest
  | unclosed ht => exact .unclosed (ht.escaped d)
  | cutEscape ht => exact .cutEscape (ht.escaped d)

theorem StringTail.plain {quote c : Char} {t rest : Text} (hquote : c ≠ quote)
    (hescape : c ≠ '\\') (h : StringTail quote t rest) :
  StringTail quote (c :: t) rest
  := by
  cases h with
  | closed ht => exact .closed (ht.plain hquote hescape) rest
  | unclosed ht => exact .unclosed (ht.plain hquote hescape)
  | cutEscape ht => exact .cutEscape (ht.plain hquote hescape)

theorem stringTail_takeString (quote : Char) (cs : Text) :
  StringTail quote (takeString quote cs).1 (takeString quote cs).2
  := by
  fun_induction takeString quote cs with
  | case1 => exact .unclosed .nil
  | case2 d cs ih => exact ih.escaped d
  | case3 cs => exact .closed .nil cs
  | case4 c cs hnot hc ih =>
    by_cases hescape : c = '\\'
    · -- a backslash that escapes nothing is the last character
      subst hescape
      cases cs with
      | nil => exact .cutEscape .nil
      | cons d cs => exact absurd rfl (hnot d cs rfl)
    · exact ih.plain hc hescape

/-- The body of a string is read to its end, whatever follows. -/
theorem StringBody.takeString_append {quote : Char} {t : Text} (ht : StringBody quote t)
    (rest : Text) :
  takeString quote (t ++ rest) = (t ++ (takeString quote rest).1, (takeString quote rest).2)
  := by
  induction ht with
  | nil => rfl
  | escaped d ht ih => rw [List.cons_append, List.cons_append, takeString, ih]; rfl
  | plain hquote hescape ht ih =>
    rw [List.cons_append, takeString, if_neg hquote, ih]
    · rfl
    · rintro d cs rfl
      contradiction

theorem StringTail.takeString_eq {quote : Char} (hquote : quote ≠ '\\') {t rest : Text}
    (h : StringTail quote t rest) :
  takeString quote (t ++ rest) = (t, rest)
  := by
  cases h with
  | @closed t ht =>
    have hmark : takeString quote (quote :: rest) = ([quote], rest) := by
      rw [takeString, if_pos rfl]
      rintro d cs rfl
      contradiction
    rw [List.append_assoc, ht.takeString_append, List.singleton_append, hmark]
  | unclosed ht => rw [ht.takeString_append, takeString, List.append_nil]
  | cutEscape ht =>
    have hescape : takeString quote ['\\'] = (['\\'], []) := by
      simp [takeString, hquote.symm]
    rw [List.append_nil, ht.takeString_append, hescape]

/-! ### Maximal lexemes -/

/-- The lexeme is as long as it can be when `rest` follows it. -/
inductive Maximal : Lexeme → Text → Prop where
  | blank {c : Char} {rest : Text} (hc : isBlank c) : Maximal (.blank c) rest
  | dots {n : Nat} {rest : Text} (hrest : StopsAt (· == '.') rest) : Maximal (.dots (n + 1)) rest
  | name {c : Char} {t rest : Text} (hc : isNameStart c) (ht : ∀ d ∈ t, isNameChar d)
      (hrest : StopsAt isNameChar rest) : Maximal (.name (c :: t)) rest
  | decimal {d : Char} {t rest : Text} (hd : isDigit d) (ht : ∀ c ∈ t, isNumberChar isDigit c)
      (hrest : StopsAt (isNumberChar isDigit) rest)
      (hradix : ¬ StartsRadix (d :: (t ++ rest))) : Maximal (.number (d :: t)) rest
  | radix {mark : Char} {t rest : Text} (hlead : LeadsDigit mark t)
      (ht : ∀ c ∈ t, isNumberChar (isRadixDigit mark) c)
      (hrest : StopsAt (isNumberChar (isRadixDigit mark)) rest) :
      Maximal (.number ('0' :: mark :: t)) rest
  | string {quote : Char} {t rest : Text} (hquote : isQuote quote)
      (ht : StringTail quote t rest) : Maximal (.string (quote :: t)) rest
  | single {c : Char} {rest : Text} (hc : StandsAlone c) : Maximal (.single c) rest

theorem LeadsDigit.takeWhile {mark : Char} {t : Text} (h : LeadsDigit mark t) :
  LeadsDigit mark (t.takeWhile (isNumberChar (isRadixDigit mark)))
  := by
  obtain ⟨d, u, hd, rfl | rfl⟩ := h
  · use d, u.takeWhile (isNumberChar (isRadixDigit mark)), hd
    simp [isNumberChar, hd]
  · use d, u.takeWhile (isNumberChar (isRadixDigit mark)), hd
    simp [isNumberChar, hd]

theorem maximal_takeNumber {c : Char} (hc : isDigit c) (cs : Text) :
  Maximal (.number (takeNumber c cs).1) (takeNumber c cs).2
  := by
  unfold takeNumber
  split
  · rename_i mark hmark
    obtain ⟨rfl, u, hu, rfl⟩ := (radixMark?_eq_some_iff c cs mark).mp hmark
    apply Maximal.radix hu.takeWhile
    · exact fun d hd => List.mem_takeWhile_imp hd
    · apply stopsAt_dropWhile
  · rename_i hmark
    apply Maximal.decimal hc
    · exact fun d hd => List.mem_takeWhile_imp hd
    · apply stopsAt_dropWhile
    · rw [List.takeWhile_append_dropWhile, startsRadix_iff, hmark]
      exact fun h => h rfl

/-- The first lexeme of a text is maximal. -/
theorem maximal_first (c : Char) (cs : Text) :
  (first c cs).1.Maximal (first c cs).2
  := by
  unfold first
  split
  · apply Maximal.dots
    apply stopsAt_dropWhile
  rename_i hdot
  split
  · rename_i hquote
    exact .string hquote (stringTail_takeString c cs)
  rename_i hquote
  split
  · rename_i hblank
    exact .blank hblank
  rename_i hblank
  split
  · rename_i hname
    apply Maximal.name hname
    · exact fun d hd => List.mem_takeWhile_imp hd
    · apply stopsAt_dropWhile
  rename_i hname
  split
  · rename_i hdigit
    exact maximal_takeNumber hdigit cs
  · rename_i hdigit
    exact .single ⟨hdot, hquote, hblank, hname, hdigit⟩

theorem takeNumber_of_decimal {d : Char} {t rest : Text} (ht : ∀ c ∈ t, isNumberChar isDigit c)
    (hrest : StopsAt (isNumberChar isDigit) rest) (hradix : ¬ StartsRadix (d :: (t ++ rest))) :
  takeNumber d (t ++ rest) = (d :: t, rest)
  := by
  rw [startsRadix_iff, not_not] at hradix
  rw [takeNumber, hradix]
  simp only [takeWhile_append_of_stopsAt ht hrest, dropWhile_append_of_stopsAt ht hrest]

theorem takeNumber_of_radix {mark : Char} {t rest : Text} (hlead : LeadsDigit mark t)
    (ht : ∀ c ∈ t, isNumberChar (isRadixDigit mark) c)
    (hrest : StopsAt (isNumberChar (isRadixDigit mark)) rest) :
  takeNumber '0' (mark :: (t ++ rest)) = ('0' :: mark :: t, rest)
  := by
  have hmark : radixMark? '0' (mark :: (t ++ rest)) = some mark := by
    rw [radixMark?_eq_some_iff]
    refine ⟨rfl, t ++ rest, ?_, rfl⟩
    obtain ⟨d, u, hd, rfl | rfl⟩ := hlead
    · exact ⟨d, u ++ rest, hd, .inl rfl⟩
    · exact ⟨d, u ++ rest, hd, .inr rfl⟩
  rw [takeNumber, hmark]
  simp only [List.drop_one, List.tail_cons, takeWhile_append_of_stopsAt ht hrest,
    dropWhile_append_of_stopsAt ht hrest]

theorem first_of_isDigit {c : Char} (hc : isDigit c) (cs : Text) :
  first c cs = (.number (takeNumber c cs).1, (takeNumber c cs).2)
  := by
  have hname := isNameChar_of_isDigit hc
  rw [first, if_neg (ne_dot_of_isNameChar hname), if_neg (not_isQuote_of_isNameChar hname),
    if_neg (not_isBlank_of_isNameChar hname), if_neg (not_isNameStart_of_isDigit hc), if_pos hc]

/-- A maximal lexeme is the first one of its text and the rest. -/
theorem Maximal.first_eq {l : Lexeme} {rest : Text} (h : l.Maximal rest) {c : Char} {cs : Text}
    (htext : l.text ++ rest = c :: cs) :
  first c cs = (l, rest)
  := by
  cases h with
  | blank hc =>
    rw [text, List.singleton_append, List.cons.injEq] at htext
    obtain ⟨rfl, rfl⟩ := htext
    have hquote : ¬ isQuote _ := fun hq => not_isBlank_of_isQuote hq hc
    rw [first, if_neg (ne_dot_of_isBlank hc), if_neg hquote, if_pos hc]
  | @dots n _ hrest =>
    rw [text, List.replicate_succ, List.cons_append, List.cons.injEq] at htext
    obtain ⟨rfl, rfl⟩ := htext
    have hdots : ∀ c ∈ List.replicate n '.', c == '.' := by simp
    rw [first, if_pos rfl, takeWhile_append_of_stopsAt hdots hrest,
      dropWhile_append_of_stopsAt hdots hrest, List.length_replicate]
  | name hc ht hrest =>
    rw [text, List.cons_append, List.cons.injEq] at htext
    obtain ⟨rfl, rfl⟩ := htext
    have hname := isNameChar_of_isNameStart hc
    rw [first, if_neg (ne_dot_of_isNameChar hname), if_neg (not_isQuote_of_isNameChar hname),
      if_neg (not_isBlank_of_isNameChar hname), if_pos hc, takeWhile_append_of_stopsAt ht hrest,
      dropWhile_append_of_stopsAt ht hrest]
  | decimal hd ht hrest hradix =>
    rw [text, List.cons_append, List.cons.injEq] at htext
    obtain ⟨rfl, rfl⟩ := htext
    rw [first_of_isDigit hd, takeNumber_of_decimal ht hrest hradix]
  | radix hlead ht hrest =>
    rw [text, List.cons_append, List.cons_append, List.cons.injEq] at htext
    obtain ⟨rfl, rfl⟩ := htext
    rw [first_of_isDigit (by decide), takeNumber_of_radix hlead ht hrest]
  | string hquote ht =>
    rw [text, List.cons_append, List.cons.injEq] at htext
    obtain ⟨rfl, rfl⟩ := htext
    rw [first, if_neg (ne_dot_of_isQuote hquote), if_pos hquote,
      ht.takeString_eq (ne_backslash_of_isQuote hquote)]
  | single hc =>
    rw [text, List.singleton_append, List.cons.injEq] at htext
    obtain ⟨rfl, rfl⟩ := htext
    rw [first, if_neg hc.not_dot, if_neg hc.not_quote, if_neg hc.not_blank,
      if_neg hc.not_nameStart, if_neg hc.not_digit]

/-! ### Cuts -/

/-- Each lexeme is maximal before the text of those after it. -/
def IsCut (ls : List Lexeme) : Prop :=
  ∀ before l after, ls = before ++ l :: after → l.Maximal (after.flatMap text)

theorem isCut_nil :
  IsCut []
  := by
  intro before l after h
  simp at h

theorem isCut_cons (l : Lexeme) (ls : List Lexeme) :
  IsCut (l :: ls) ↔ l.Maximal (ls.flatMap text) ∧ IsCut ls
  := by
  constructor
  · intro h
    constructor
    · exact h [] l ls rfl
    · rintro before l' after rfl
      exact h (l :: before) l' after rfl
  · rintro ⟨hl, hls⟩ before l' after h
    cases before with
    | nil =>
      obtain ⟨rfl, rfl⟩ := List.cons.inj h
      exact hl
    | cons l'' before =>
      obtain ⟨rfl, rfl⟩ := List.cons.inj h
      exact hls before l' after rfl

/-- Cutting a text gives maximal lexemes. -/
theorem isCut_cut (t : Text) :
  IsCut (cut t)
  := by
  fun_induction cut t with
  | case1 => exact isCut_nil
  | case2 c cs ih =>
    rw [isCut_cons, flatMap_text_cut]
    exact ⟨maximal_first c cs, ih⟩

theorem Maximal.text_ne_nil {l : Lexeme} {rest : Text} (h : l.Maximal rest) :
  l.text ≠ []
  := by
  cases h <;> exact List.cons_ne_nil _ _

theorem cut_flatMap_text {ls : List Lexeme} (h : IsCut ls) :
  cut (ls.flatMap text) = ls
  := by
  induction ls with
  | nil => rw [List.flatMap_nil, cut]
  | cons l ls ih =>
    rw [isCut_cons] at h
    obtain ⟨c, t, ht⟩ := List.exists_cons_of_ne_nil h.1.text_ne_nil
    have hfirst : first c (t ++ ls.flatMap text) = (l, ls.flatMap text) := by
      apply h.1.first_eq
      rw [ht, List.cons_append]
    rw [List.flatMap_cons, ht, List.cons_append, cut, hfirst, ih h.2]

/-- Cutting a text gives those maximal lexemes that make up the text, and no others. -/
theorem cut_eq_iff (t : Text) (ls : List Lexeme) :
  cut t = ls ↔ ls.flatMap text = t ∧ IsCut ls
  := by
  constructor
  · rintro rfl
    exact ⟨flatMap_text_cut t, isCut_cut t⟩
  · rintro ⟨rfl, h⟩
    exact cut_flatMap_text h

/-- A lexeme of a text is a part of it, and maximal before the rest. -/
theorem exists_eq_append_of_mem_cut {t : Text} {l : Lexeme} (h : l ∈ cut t) :
  ∃ before rest : Text, t = before ++ (l.text ++ rest) ∧ l.Maximal rest
  := by
  obtain ⟨before, after, hcut⟩ := List.append_of_mem h
  use before.flatMap text, after.flatMap text
  constructor
  · rw [← List.flatMap_cons, ← List.flatMap_append, ← hcut, flatMap_text_cut]
  · apply isCut_cut t before l after hcut

/-! ### Separators -/

/-- The lexeme is not a string without a closing mark. -/
def Closed (l : Lexeme) : Prop :=
  ∀ quote t, l = .string (quote :: t) → ∃ body, StringBody quote body ∧ t = body ++ [quote]

/-- Only the last lexeme can be left open. -/
theorem Maximal.closed {l : Lexeme} {rest : Text} (h : l.Maximal rest) (hrest : rest ≠ []) :
  l.Closed
  := by
  rintro quote t rfl
  obtain _ | _ | _ | _ | _ | ⟨-, ht⟩ | _ := h
  cases ht with
  | closed ht => exact ⟨_, ht, rfl⟩
  | unclosed ht => exact absurd rfl hrest
  | cutEscape ht => exact absurd rfl hrest

theorem LeadsDigit.of_append_cons {mark : Char} {s : Text} {c : Char} (hc : Separates c)
    {b : Text} (h : LeadsDigit mark (s ++ c :: b)) :
  LeadsDigit mark s
  := by
  obtain ⟨d, u, hd, h⟩ := h
  have hname := isNameChar_of_isRadixDigit hd
  match s, h with
  | [], .inl h =>
    obtain ⟨rfl, -⟩ := List.cons.inj h
    exact absurd hname hc.not_nameChar
  | [], .inr h =>
    obtain ⟨rfl, -⟩ := List.cons.inj h
    exact absurd rfl hc.not_dot
  | e :: s, .inl h =>
    obtain ⟨rfl, -⟩ := List.cons.inj h
    exact ⟨e, s, hd, .inl rfl⟩
  | [e], .inr h =>
    obtain ⟨-, hrest⟩ := List.cons.inj h
    obtain ⟨rfl, -⟩ := List.cons.inj hrest
    exact absurd hname hc.not_nameChar
  | e :: f :: s, .inr h =>
    obtain ⟨rfl, hrest⟩ := List.cons.inj h
    obtain ⟨rfl, -⟩ := List.cons.inj hrest
    exact ⟨f, s, hd, .inr rfl⟩

/-- A number in another radix that begins before a separator has a digit before it. -/
theorem StartsRadix.of_append_cons {s : Text} {c : Char} (hc : Separates c) {b : Text}
    (h : StartsRadix (s ++ c :: b)) :
  StartsRadix s
  := by
  obtain ⟨mark, u, hu, h⟩ := h
  match s, h with
  | [], h =>
    obtain ⟨rfl, -⟩ := List.cons.inj h
    exact absurd (by decide) hc.not_nameChar
  | [x], h =>
    obtain ⟨-, hrest⟩ := List.cons.inj h
    obtain ⟨rfl, -⟩ := List.cons.inj hrest
    exact absurd (isNameChar_of_mem_radixMarks c hu.mem_radixMarks) hc.not_nameChar
  | x :: y :: s, h =>
    obtain ⟨rfl, hrest⟩ := List.cons.inj h
    obtain ⟨rfl, rfl⟩ := List.cons.inj hrest
    exact ⟨y, s, hu.of_append_cons hc, rfl⟩

theorem StartsRadix.append {s : Text} (h : StartsRadix s) (t : Text) :
  StartsRadix (s ++ t)
  := by
  obtain ⟨mark, u, ⟨d, v, hd, rfl | rfl⟩, rfl⟩ := h
  · exact ⟨mark, d :: v ++ t, ⟨d, v ++ t, hd, .inl rfl⟩, rfl⟩
  · exact ⟨mark, '.' :: d :: v ++ t, ⟨d, v ++ t, hd, .inr rfl⟩, rfl⟩

theorem not_isNumberChar_of_separates {digit : Char → Bool} (h : ∀ d, digit d → isNameChar d)
    {c : Char} (hc : Separates c) :
  ¬ isNumberChar digit c
  := by
  rw [isNumberChar, Bool.or_eq_true, beq_iff_eq, not_or]
  constructor
  · exact hc.not_dot
  · exact fun hd => hc.not_nameChar (h c hd)

section

variable {l : Lexeme} {rest : Text}

/-- A maximal lexeme is a blank, or holds no blank, or is a string. -/
theorem Maximal.cases_blank (h : l.Maximal rest) :
  (∃ c, l = .blank c) ∨ (∀ c ∈ l.text, ¬ isBlank c)
    ∨ ∃ quote t, l = .string (quote :: t) ∧ isQuote quote ∧ StringTail quote t rest
  := by
  have hnumber : ∀ {digit : Char → Bool}, (∀ d, digit d → isNameChar d) → ∀ {c},
      isNumberChar digit c → ¬ isBlank c :=
    fun hdigit _ hc hblank => not_isNumberChar_of_separates hdigit (separates_of_isBlank hblank) hc
  cases h with
  | @blank c => exact .inl ⟨c, rfl⟩
  | dots _ =>
    right; left
    intro c hc
    rw [List.eq_of_mem_replicate hc]
    decide
  | name hc ht _ =>
    right; left
    rw [text, List.forall_mem_cons]
    exact ⟨not_isBlank_of_isNameChar (isNameChar_of_isNameStart hc),
      fun d hd => not_isBlank_of_isNameChar (ht d hd)⟩
  | decimal hd ht _ _ =>
    right; left
    rw [text, List.forall_mem_cons]
    exact ⟨not_isBlank_of_isNameChar (isNameChar_of_isDigit hd),
      fun c hc => hnumber (fun _ => isNameChar_of_isDigit) (ht c hc)⟩
  | @radix mark _ _ hlead ht _ =>
    right; left
    rw [text, List.forall_mem_cons, List.forall_mem_cons]
    exact ⟨by decide, not_isBlank_of_mem_radixMarks mark hlead.mem_radixMarks,
      fun c hc => hnumber (fun _ => isNameChar_of_isRadixDigit) (ht c hc)⟩
  | @string quote t _ hquote ht => exact .inr (.inr ⟨quote, t, rfl, hquote, ht⟩)
  | single hc =>
    right; left
    rw [text, List.forall_mem_singleton]
    exact hc.not_blank

/-- A maximal lexeme is still maximal with less text after it. -/
theorem Maximal.of_append {s t : Text} (h : l.Maximal (s ++ t)) :
  l.Maximal s
  := by
  cases h with
  | blank hc => exact .blank hc
  | dots hrest => exact .dots hrest.of_append
  | name hc ht hrest => exact .name hc ht hrest.of_append
  | decimal hd ht hrest hradix =>
    apply Maximal.decimal hd ht hrest.of_append
    intro hstart
    have hmore := hstart.append t
    rw [List.cons_append, List.append_assoc] at hmore
    exact hradix hmore
  | radix hlead ht hrest => exact .radix hlead ht hrest.of_append
  | string hquote ht =>
    apply Maximal.string hquote
    generalize hrest : s ++ t = rest at ht
    cases ht with
    | closed ht => exact .closed ht s
    | unclosed ht =>
      rw [(List.append_eq_nil_iff.mp hrest).1]
      exact .unclosed ht
    | cutEscape ht =>
      rw [(List.append_eq_nil_iff.mp hrest).1]
      exact .cutEscape ht
  | single hc => exact .single hc

theorem Maximal.at_end (h : l.Maximal rest) :
  l.Maximal []
  := Maximal.of_append h

/-- A closed lexeme is still maximal with a separator and any text put after the rest. -/
theorem Maximal.append_cons (h : l.Maximal rest) (hclosed : l.Closed) {c : Char}
    (hc : Separates c) (b : Text) :
  l.Maximal (rest ++ c :: b)
  := by
  cases h with
  | blank hblank => exact .blank hblank
  | dots hrest =>
    apply Maximal.dots
    apply hrest.append
    rw [stopsAt_cons, beq_iff_eq]
    exact hc.not_dot
  | name hname ht hrest =>
    apply Maximal.name hname ht
    apply hrest.append
    rw [stopsAt_cons]
    exact hc.not_nameChar
  | @decimal d t _ hd ht hrest hradix =>
    apply Maximal.decimal hd ht
    · apply hrest.append
      rw [stopsAt_cons]
      exact not_isNumberChar_of_separates (fun _ => isNameChar_of_isDigit) hc
    · intro hstart
      rw [← List.append_assoc, ← List.cons_append] at hstart
      exact hradix (hstart.of_append_cons hc)
  | radix hlead ht hrest =>
    apply Maximal.radix hlead ht
    apply hrest.append
    rw [stopsAt_cons]
    exact not_isNumberChar_of_separates (fun _ => isNameChar_of_isRadixDigit) hc
  | string hquote _ =>
    obtain ⟨body, hbody, rfl⟩ := hclosed _ _ rfl
    exact .string hquote (.closed hbody _)
  | single hsingle => exact .single hsingle

/-- A lexeme that is not the last one is still maximal with a blank put into the rest. -/
theorem Maximal.insert_blank {s t : Text} (h : l.Maximal (s ++ t)) (ht : t ≠ []) {c : Char}
    (hc : isBlank c) :
  l.Maximal (s ++ c :: t)
  := by
  have hclosed : l.Closed := by
    apply h.closed
    apply List.append_ne_nil_of_right_ne_nil s ht
  apply h.of_append.append_cons hclosed (separates_of_isBlank hc)

end

theorem IsCut.append {ls ls' : List Lexeme} (h : IsCut ls) (hclosed : ∀ l ∈ ls, l.Closed)
    (h' : IsCut ls') (hsep : ∀ c ∈ (ls'.flatMap text).head?, Separates c) :
  IsCut (ls ++ ls')
  := by
  induction ls with
  | nil => exact h'
  | cons l ls ih =>
    rw [isCut_cons] at h
    rw [List.forall_mem_cons] at hclosed
    rw [List.cons_append, isCut_cons, List.flatMap_append]
    refine ⟨?_, ih h.2 hclosed.2⟩
    cases hrest : ls'.flatMap text with
    | nil =>
      rw [List.append_nil]
      exact h.1
    | cons c b =>
      apply h.1.append_cons hclosed.1
      apply hsep
      rw [hrest, List.head?_cons, Option.mem_def]

/-- Two texts are cut apart if no string is left open in the first one and the second one begins
with a separator. -/
theorem cut_append {a b : Text} (ha : ∀ l ∈ cut a, l.Closed)
    (hb : ∀ c ∈ b.head?, Separates c) :
  cut (a ++ b) = cut a ++ cut b
  := by
  rw [cut_eq_iff]
  constructor
  · rw [List.flatMap_append, flatMap_text_cut, flatMap_text_cut]
  · apply (isCut_cut a).append ha (isCut_cut b)
    rwa [flatMap_text_cut]

/-- A maximal lexeme is the first one that its text and the rest are cut into. -/
theorem Maximal.cut_append {l : Lexeme} {rest : Text} (h : l.Maximal rest) :
  cut (l.text ++ rest) = l :: cut rest
  := by
  rw [cut_eq_iff, List.flatMap_cons, flatMap_text_cut, isCut_cons, flatMap_text_cut]
  exact ⟨rfl, h, isCut_cut rest⟩

/-- A blank is a lexeme of its own. -/
theorem cut_blank_cons {c : Char} (hc : isBlank c) (t : Text) :
  cut (c :: t) = .blank c :: cut t
  := Maximal.cut_append (l := .blank c) (.blank hc)

/-- A blank separates: the text before it and the text after it are cut apart. -/
theorem cut_append_blank {a : Text} (ha : ∀ l ∈ cut a, l.Closed) {c : Char} (hc : isBlank c)
    (b : Text) :
  cut (a ++ c :: b) = cut a ++ .blank c :: cut b
  := by
  have hsep : ∀ d ∈ (c :: b).head?, Separates d := by
    simpa using separates_of_isBlank hc
  rw [cut_append ha hsep, cut_blank_cons hc]

/-- A name is one lexeme. -/
theorem maximal_name {t : Text} (h : isName t) :
  Maximal (.name t) []
  := by
  cases t with
  | nil => contradiction
  | cons c t =>
    rw [isName, Bool.and_eq_true, List.all_eq_true] at h
    apply Maximal.name h.1 h.2 (stopsAt_nil _)

/-- A maximal lexeme is all that its text is cut into. -/
theorem Maximal.cut_text {l : Lexeme} {rest : Text} (h : l.Maximal rest) :
  cut l.text = [l]
  := by
  rw [cut_eq_iff, List.flatMap_singleton, isCut_cons]
  exact ⟨rfl, h.at_end, isCut_nil⟩

end Lexeme

end CartTokens
