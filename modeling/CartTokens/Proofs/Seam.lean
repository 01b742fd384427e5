import CartTokens.Proofs.Bound
import CartTokens.Proofs.Joint
import CartTokens.Proofs.Passage
import CartTokens.Proofs.Rescan

/-!
# Seams

Where a block comment is taken out, what stood before it and what stood after it come together.
If the two characters that meet do not join, a space in the place of the comment would make no
difference: it would fall between two lexemes, into a string or into a comment
(`Line.count_insert_space`), and the lines of the text would cost the same (`cost_insert_space`).
If they join, there is a line in which it makes a difference (`exists_glued`), and so there is a
text with a single comment (`CommentBetween`) in which it does.
-/

namespace CartTokens

open Text

/-! ### Lines -/

namespace Text

/-- Trimming two texts that are not blank, with some text between them, takes away white space
before the first and after the second one. -/
theorem exists_trim_append {s t : Text} (hs : ¬ isBlankLine s) (ht : ¬ isBlankLine t) :
  ∃ s' t', s' ≠ [] ∧ t' ≠ [] ∧ s' <:+ s ∧ t' <+: t ∧ ∀ m, trim (s ++ m ++ t) = s' ++ m ++ t'
  := by
  obtain ⟨v, w, hv, -, heq⟩ := exists_eq_append_trim s
  obtain ⟨v', w', -, hw', heq'⟩ := exists_eq_append_trim t
  have hne : trim s ≠ [] := by rwa [Ne, trim_eq_nil_iff]
  have hne' : trim t ≠ [] := by rwa [Ne, trim_eq_nil_iff]
  have hstart := ((trim_eq_self_iff _).mp (trim_trim s)).1
  have hend := ((trim_eq_self_iff _).mp (trim_trim t)).2
  use trim s ++ w, v' ++ trim t
  refine ⟨List.append_ne_nil_of_left_ne_nil hne w, List.append_ne_nil_of_right_ne_nil v' hne',
    ⟨v, ?_⟩, ⟨w', heq'.symm⟩, fun m => ?_⟩
  · rw [← List.append_assoc, ← heq]
  · have hshape : s ++ m ++ t = v ++ ((trim s ++ w) ++ m ++ (v' ++ trim t)) ++ w' := by
      nth_rewrite 1 [heq, heq']
      simp only [List.append_assoc]
    rw [hshape, trim_append_blank _ hw', trim_blank_append hv, trim_eq_self_iff]
    constructor
    · rwa [List.append_assoc, List.append_assoc, List.head?_append_of_ne_nil _ hne]
    · rwa [← List.append_assoc, List.getLast?_append_of_ne_nil _ hne']

end Text

namespace Line

/-- No mark of a comment stands across characters that do not join. -/
theorem startsComment_of_apart {s t : Text} (hne : s ≠ []) (h : Apart s t)
    (hstart : startsComment (s ++ t)) :
  startsComment s
  := by
  have hlength : ∀ mark ∈ lineMarkers, mark.length = 2 := by decide
  rw [startsComment_iff] at hstart ⊢
  obtain ⟨mark, hmark, hmarked⟩ := hstart
  use mark, hmark
  obtain ⟨c, s, rfl⟩ := List.exists_cons_of_ne_nil hne
  cases s with
  | cons d s =>
    apply List.prefix_of_prefix_length_le hmarked (List.prefix_append _ t)
    rw [hlength mark hmark]
    simp
  | nil =>
    obtain ⟨l, r, rfl⟩ := List.length_eq_two.mp (hlength mark hmark)
    obtain ⟨rfl, hr⟩ := List.cons_prefix_cons.mp hmarked
    obtain ⟨rest, rfl⟩ := hr
    exact absurd (.comment hmark) (h l rfl r rfl)

/-- A comment begins in the first of two texts or in the second. -/
theorem stripComment_append {s t : Text} (h : Apart s t) :
  stripComment (s ++ t) = if stripComment s = s then s ++ stripComment t else stripComment s
  := by
  apply stripComment_append_of
  intro u hne hu
  apply startsComment_of_apart hne (h.mono hu List.prefix_rfl)

/-- A space put between two characters that do not join leaves the cost of a line as it is. -/
theorem count_insert_space {s t : Text} (h : Apart s t) {c : Char} (hc : isSpace c) :
  count (s ++ t) = count (s ++ c :: t)
  := by
  have hblank := isBlank_of_isSpace hc
  have hspace : isBlankLine [c] := by rwa [isBlankLine_iff, List.forall_mem_singleton]
  have hstrip := stripComment_append h
  have hstrip' := stripComment_append_cons (not_mem_lineMarkers_of_isSpace hc) s t
  split at hstrip
  · rename_i hs
    rw [if_pos hs] at hstrip'
    by_cases hleft : isBlankLine s
    · apply count_eq_of_code_eq
      rw [code, code, hstrip, hstrip', trim_blank_append hleft, trim_blank_append hleft,
        ← List.singleton_append, trim_blank_append hspace]
    by_cases hright : isBlankLine (stripComment t)
    · have hright' : isBlankLine (c :: stripComment t) := by
        rw [isBlankLine_iff, List.forall_mem_cons, ← isBlankLine_iff]
        exact ⟨hc, hright⟩
      apply count_eq_of_code_eq
      rw [code, code, hstrip, hstrip', trim_append_blank _ hright, trim_append_blank _ hright']
    · obtain ⟨s', t', hs', ht', hback, hfront, htrim⟩ := exists_trim_append hleft hright
      have hapart : Apart s' t' := h.mono hback (hfront.trans (isPrefix_stripComment t))
      apply count_eq_of_similar
      rw [code, code, hstrip, hstrip', List.append_cons, htrim [c], ← List.append_nil s,
        htrim [], List.append_nil, ← List.append_cons]
      apply forall₂_scan_insert_blank ht' hapart hblank
  · rename_i hs
    rw [if_neg hs] at hstrip'
    apply count_eq_of_code_eq
    rw [code, code, hstrip, hstrip']

end Line

/-! ### Texts -/

/-- A space put between two characters that do not join leaves the cost of a text as it is. -/
theorem cost_insert_space {s t : Text} (h : Apart s t) :
  cost (s ++ t) = cost (s ++ ' ' :: t)
  := by
  induction s using line_induction with
  | cut l s hl ih =>
    have hs : Apart s t := h.mono ((List.suffix_cons _ s).trans (List.suffix_append l _))
      List.prefix_rfl
    rw [List.append_assoc, List.append_assoc, List.cons_append, List.cons_append,
      cost_append_break, cost_append_break, ih hs]
  | line s hs =>
    induction t using line_induction with
    | line t ht =>
      rw [cost_line (by simp [hs, ht]), cost_line (by simp [hs, ht])]
      apply Line.count_insert_space h (by decide)
    | cut l t hl ih =>
      have hline := Line.count_insert_space (h.mono List.suffix_rfl (List.prefix_append l _))
        (by decide : isSpace ' ')
      have hglued : '\n' ∉ s ++ l := by simp [hs, hl]
      have hspaced : '\n' ∉ s ++ ' ' :: l := by simp [hs, hl]
      rw [← List.cons_append, ← List.append_assoc, ← List.append_assoc, cost_append_break,
        cost_append_break, cost_line hglued, cost_line hspaced, hline]

/-! ### Comments -/

/-- Where a comment is taken out of the passages, which stand after the text `s`, the characters
that come together do not join. -/
def SeamsApart (s : Text) (ps : List Passage) : Prop :=
  ∀ before level inside after, ps = before ++ .comment level inside :: after →
    Apart (s ++ before.flatMap Passage.kept) (after.flatMap Passage.kept)

theorem seamsApart_cons_iff (s : Text) (p : Passage) (ps : List Passage) :
  SeamsApart s (p :: ps)
    ↔ (∀ level inside, p = .comment level inside → Apart s (ps.flatMap Passage.kept))
      ∧ SeamsApart (s ++ p.kept) ps
  := by
  constructor
  · intro h
    constructor
    · rintro level inside rfl
      have hseam := h [] level inside ps rfl
      rwa [List.flatMap_nil, List.append_nil] at hseam
    · rintro before level inside after rfl
      have hseam := h (p :: before) level inside after rfl
      rwa [List.flatMap_cons, ← List.append_assoc] at hseam
  · rintro ⟨hseam, hrest⟩ before level inside after heq
    cases before with
    | nil =>
      obtain ⟨hp, rfl⟩ := List.cons.inj heq
      rw [List.flatMap_nil, List.append_nil]
      apply hseam level inside hp
    | cons q before =>
      obtain ⟨rfl, hps⟩ := List.cons.inj heq
      rw [List.flatMap_cons, ← List.append_assoc]
      apply hrest before level inside after hps

theorem SeamsApart.append_space {s : Text} {ps : List Passage} (h : SeamsApart s ps) :
  SeamsApart (s ++ [' ']) ps
  := by
  intro before level inside after hps l hl
  by_cases hbefore : before.flatMap Passage.kept = []
  · rw [hbefore, List.append_nil, List.getLast?_concat] at hl
    obtain rfl := Option.some.inj hl
    exact fun r _ => not_joins_of_isBlank_left (by decide)
  · apply h before level inside after hps
    rwa [List.getLast?_append_of_ne_nil _ hbefore] at hl ⊢

/-- Spaces in the place of comments leave the cost of a text as it is. -/
theorem SeamsApart.cost_eq {s : Text} {ps : List Passage} (h : SeamsApart s ps) :
  cost (s ++ ps.flatMap Passage.kept) = cost (s ++ ps.flatMap (Passage.filled [' ']))
  := by
  induction ps generalizing s with
  | nil => rfl
  | cons p ps ih =>
    obtain ⟨hseam, hrest⟩ := (seamsApart_cons_iff s p ps).mp h
    cases p with
    | comment level inside =>
      have hkept : s ++ (Passage.comment level inside).kept = s := List.append_nil s
      rw [hkept] at hrest
      calc
        cost (s ++ ps.flatMap Passage.kept)
            = cost (s ++ ' ' :: ps.flatMap Passage.kept) :=
            cost_insert_space (hseam level inside rfl)
        _ = cost (s ++ [' '] ++ ps.flatMap Passage.kept) := by rw [List.append_cons]
        _ = cost (s ++ [' '] ++ ps.flatMap (Passage.filled [' '])) := ih hrest.append_space
        _ = cost (s ++ (Passage.comment level inside :: ps).flatMap (Passage.filled [' '])) := by
          rw [List.append_assoc]
          rfl
    | opener level =>
      have hcost := ih hrest
      rwa [List.append_assoc, List.append_assoc] at hcost
    | char c =>
      have hcost := ih hrest
      rwa [List.append_assoc, List.append_assoc] at hcost

/-! ### Characters that join -/

namespace Line

/-- A name is one token. -/
theorem raws_of_isName {t : Text} (h : isName t) :
  raws t = [⟨.identifier, t⟩]
  := by
  have hcut := (Lexeme.maximal_name h).cut_text
  rw [Lexeme.text] at hcut
  rw [(isCode_of_isName h).raws_eq, scan, hcut]
  rfl

theorem scan_singleton {c : Char} (h : isNameChar c) :
  ∃ shape, scan [c] = [⟨shape, [c]⟩]
  := by
  rw [isNameChar, Bool.or_eq_true] at h
  obtain hname | hdigit := h
  · have hcut := (Lexeme.maximal_name (t := [c]) (by simpa [isName] using hname)).cut_text
    rw [Lexeme.text] at hcut
    exact ⟨.identifier, by rw [scan, hcut]; rfl⟩
  · have hmax : Lexeme.Maximal (.number [c]) [] := by
      apply Lexeme.Maximal.decimal hdigit (List.forall_mem_nil _) (Lexeme.stopsAt_nil _)
      rintro ⟨mark, u, -, heq⟩
      exact absurd (congrArg List.length heq) (by simp)
    have hcut := hmax.cut_text
    rw [Lexeme.text] at hcut
    exact ⟨.number, by rw [scan, hcut]; rfl⟩

/-- The characters of names weigh as tokens, alone and after another one. -/
theorem weight_of_isNameChar {c : Char} (h : isNameChar c) :
  (∀ t ∈ [[c], ['x', c]], t ∉ structural ∧ (Token.ofText t).weight = 1)
  := nameChar_induction (motive := fun c => ∀ t ∈ [[c], ['x', c]],
    t ∉ structural ∧ (Token.ofText t).weight = 1) (by decide +kernel)
    (forall_mem_of_all (by decide +kernel)) h

/-- A name of two characters and a character of a name are two tokens with a space between them. -/
theorem raws_name_space {l r : Char} (hl : isNameChar l) (hr : isNameChar r) :
  ∃ shape, raws (['x', l] ++ ' ' :: [r]) = [⟨.identifier, ['x', l]⟩, ⟨shape, [r]⟩]
  := by
  have hname : isName ['x', l] := by
    rw [isName, List.all_cons, hl]
    rfl
  have hcut : Lexeme.cut ['x', l] = [.name ['x', l]] := (Lexeme.maximal_name hname).cut_text
  have hclosed : ∀ u ∈ Lexeme.cut ['x', l], u.Closed := by
    rw [hcut, List.forall_mem_singleton]
    intro quote t heq
    cases heq
  have hblank : isBlank ' ' := by decide
  have hcode : IsCode (['x', l] ++ ' ' :: [r]) := by
    apply (isCode_of_isName hname).append_space _ (by decide)
    apply isCode_of_forall (List.cons_ne_nil r [])
    rw [List.forall_mem_singleton, Lexeme.isNumberChar, hr, Bool.or_true]
  obtain ⟨shape, hscan⟩ := scan_singleton hr
  have hscans : scan (['x', l] ++ ' ' :: [r]) = ⟨.identifier, ['x', l]⟩ :: scan [r] := by
    rw [scan, Lexeme.cut_append_blank hclosed hblank, hcut]
    rfl
  use shape
  rw [hcode.raws_eq, hscans, hscan, collapse_of_mem List.mem_cons_self]
  intro hglyphs
  exact absurd (((isGlyphRun_iff _).mp hglyphs).2 'x' List.mem_cons_self) (by decide)

/-- Two tokens, the first one of several characters, stay apart. -/
theorem merge_pair {a b : Text} (ha : 1 < a.length) (hb : b ≠ []) :
  merge [a, b] = [a, b]
  := by
  have hne : a ≠ [] := List.ne_nil_of_length_pos (Nat.zero_lt_of_lt ha)
  have hsingle : ∀ c, a ≠ [c] := by
    rintro c rfl
    exact absurd ha (lt_irrefl 1)
  have hfused : fused none a [b] = 0 := by
    have hfusion := fusion_fused none a [b]
    generalize fused none a [b] = n at hfusion
    cases hfusion with
    | alone => rfl
    | compound h =>
      obtain ⟨c, -, heq, -⟩ | ⟨heq, -⟩ := eq_of_isCompound hne hb h
      · exact absurd heq (hsingle c)
      · exact absurd heq (hsingle '.')
    | signed hsign => exact absurd hsign (hsingle '-')
  rw [merge, groups, hfused, List.take_zero, List.drop_zero, groups, List.take_nil,
    List.drop_nil, groups]
  simp

theorem count_name_space {l r : Char} (hl : isNameChar l) (hr : isNameChar r) :
  count (['x', l] ++ ' ' :: [r]) = 2
  := by
  obtain ⟨shape, hraws⟩ := raws_name_space hl hr
  have hmerged : merged (['x', l] ++ ' ' :: [r]) = [['x', l], [r]] := by
    rw [merged, hraws]
    apply merge_pair _ (List.cons_ne_nil r [])
    apply Nat.one_lt_two
  obtain ⟨hfree, hweight⟩ := weight_of_isNameChar hl ['x', l] (by simp)
  obtain ⟨hfree', hweight'⟩ := weight_of_isNameChar hr [r] (by simp)
  rw [count, tokens, hmerged]
  simp [hfree, hfree', hweight, hweight']

end Line

/-! ### A single comment -/

/-- The text has a single comment, with the first text before it and the second one after it, and
no other opener. -/
def CommentBetween (before after t : Text) : Prop :=
  ∃ level inside, Passages t (before.map .char ++ .comment level inside :: after.map .char)

theorem flatMap_filled_map_char (fill t : Text) :
  (t.map Passage.char).flatMap (Passage.filled fill) = t
  := by
  rw [List.flatMap_map]
  apply List.flatMap_singleton'

theorem CommentBetween.replaceComments_eq {before after t : Text}
    (h : CommentBetween before after t) (fill : Text) :
  replaceComments fill t = before ++ fill ++ after
  := by
  obtain ⟨level, inside, hps⟩ := h
  rw [hps.replaceComments_eq, List.flatMap_append, List.flatMap_cons, flatMap_filled_map_char,
    flatMap_filled_map_char, List.append_assoc]
  rfl

/-- No comment opens in a text without a dash. -/
theorem Passages.append_left {s t : Text} {ps : List Passage} (hs : '-' ∉ s) (h : Passages t ps) :
  Passages (s ++ t) (s.map .char ++ ps)
  := by
  induction s with
  | nil => exact h
  | cons c s ih =>
    rw [List.mem_cons, not_or] at hs
    apply Passages.plain _ (ih hs.2)
    intro hstart
    exact hs.1 (List.cons_prefix_cons.mp hstart).1

/-- A comment between two characters, with texts around them that hold no dash. -/
theorem commentBetween_of_notMem {a b : Text} (ha : '-' ∉ a) (hb : '-' ∉ b) (l r : Char) :
  CommentBetween (a ++ [l]) (r :: b) (a ++ l :: ("--[[]]".toList ++ r :: b))
  := by
  have hright : Passages (r :: b) ((r :: b).map .char) := by
    have hrest := Passages.append_left hb .nil
    rw [List.append_nil, List.append_nil] at hrest
    apply Passages.plain _ hrest
    intro hstart
    obtain ⟨rest, rfl⟩ := (List.cons_prefix_cons.mp hstart).2
    exact hb List.mem_cons_self
  have hfirst : StandsFirst (commentCloser 0) [] (r :: b) :=
    (standsFirst_iff (commentCloser_ne_nil 0) _ _).mpr rfl
  have hcomment : Passages ("--[[]]".toList ++ r :: b) (.comment 0 [] :: (r :: b).map .char) :=
    .comment hfirst hright
  have hleft : ¬ "--[".toList <+: l :: ("--[[]]".toList ++ r :: b) := by simp
  use 0, []
  rw [List.map_append, List.append_assoc]
  exact .append_left ha (.plain hleft hcomment)

/-! ### Lines that a space changes -/

/-- Between texts without dashes that make one line with them, a space between two characters
changes what the line costs. -/
def Glued (a b : Text) (l r : Char) : Prop :=
  '-' ∉ a ∧ '-' ∉ b ∧ '\n' ∉ a ++ l :: ' ' :: r :: b
    ∧ Line.count (a ++ l :: r :: b) ≠ Line.count (a ++ l :: ' ' :: r :: b)

instance (a b : Text) (l r : Char) : Decidable (Glued a b l r) :=
  inferInstanceAs (Decidable (_ ∧ _ ∧ _ ∧ _))

theorem Glued.cost_ne {a b : Text} {l r : Char} (h : Glued a b l r) :
  cost (a ++ [l] ++ [] ++ r :: b) ≠ cost (a ++ [l] ++ [' '] ++ r :: b)
  := by
  obtain ⟨-, -, hline, hne⟩ := h
  have hglued : '\n' ∉ a ++ l :: r :: b := by
    intro hmem
    apply hline
    apply List.Sublist.subset _ hmem
    simp
  simp only [List.append_assoc, List.cons_append, List.nil_append]
  rwa [cost_line hglued, cost_line hline]

theorem glued_of_isNameChar {l r : Char} (hl : isNameChar l) (hr : isNameChar r) :
  Glued ['x'] [] l r
  := by
  have hname : isName ['x', l, r] := by
    rw [isName, List.all_cons, List.all_cons, hl, hr]
    rfl
  have hglued : Line.count ['x', l, r] ≤ 1 := by
    apply (Line.count_le_length_raws _).trans_eq
    rw [Line.raws_of_isName hname, List.length_singleton]
  have hspaced : Line.count ['x', l, ' ', r] = 2 := Line.count_name_space hl hr
  have hbreak : ∀ c, isNameChar c → '\n' ≠ c := by
    rintro c hc rfl
    exact absurd hc (by decide)
  refine ⟨by decide, by decide, ?_, ?_⟩
  · simp [hbreak l hl, hbreak r hr]
  · rw [List.singleton_append, List.singleton_append, hspaced]
    omega

/-- The hexadecimal digits, small and capital. -/
def hexDigits : Text := "0123456789abcdefABCDEF".toList

theorem mem_hexDigits {d : Char} (h : isHexDigit d) :
  d ∈ hexDigits
  := nameChar_induction (motive := fun d => isHexDigit d → d ∈ hexDigits) (by decide +kernel)
    (forall_mem_of_all (by decide)) (isNameChar_of_isHexDigit h) h

/-- Characters that join are read together in some line. -/
theorem exists_glued {l r : Char} (h : Joins l r) :
  ∃ a b, Glued a b l r
  := by
  cases h with
  | name hl hr =>
    use ['x'], []
    apply glued_of_isNameChar hl hr
  | dots =>
    use [], []
    decide +kernel
  | fraction hr =>
    have hglued : ∀ d ∈ hexDigits, Glued "0x1".toList [] '.' d :=
      forall_mem_of_all (by decide +kernel)
    use "0x1".toList, []
    apply hglued r (mem_hexDigits hr)
  | point hl =>
    obtain hdigit | hmark := hl
    · have hglued : ∀ d ∈ hexDigits, Glued "0x".toList ['1'] d '.' :=
        forall_mem_of_all (by decide +kernel)
      use "0x".toList, ['1']
      apply hglued l (mem_hexDigits hdigit)
    · have hglued : ∀ mark ∈ radixMarks, Glued ['0'] ['1'] mark '.' :=
        forall_mem_of_all (by decide +kernel)
      use ['0'], ['1']
      apply hglued l hmark
  | comment h =>
    have hmarks : ∀ mark ∈ lineMarkers, mark = ['-', '-'] ∨ mark = ['/', '/'] := by decide
    use [], []
    obtain heq | heq := hmarks _ h
    · cases heq
      decide +kernel
    · cases heq
      decide +kernel
  | escape hr =>
    obtain rfl | hquote := hr
    · use ['\x22'], "\x22x".toList
      decide +kernel
    · use [r], ['x']
      rw [isQuote, Bool.or_eq_true, beq_iff_eq, beq_iff_eq] at hquote
      obtain rfl | rfl := hquote
      · decide +kernel
      · decide +kernel

/-- Texts cost the same with spaces in the place of their comments as without them, as long as
no comment keeps two characters apart that join.  Two characters join exactly if there is a text
with a single comment, which stands between the two, that costs something else with a space in
the place of the comment. -/
theorem sum_count_stripComments_eq_spaced :
  (∀ (t : Text) (ps : List Passage), Passages t ps → SeamsApart [] ps →
      ((lines (stripComments t)).map Line.count).sum
        = ((lines (replaceComments [' '] t)).map Line.count).sum)
    ∧ ∀ l r, Joins l r ↔ ∃ a b t, CommentBetween (a ++ [l]) (r :: b) t
      ∧ ((lines (stripComments t)).map Line.count).sum
        ≠ ((lines (replaceComments [' '] t)).map Line.count).sum
  := by
  simp only [sum_count_eq_cost]
  constructor
  · intro t ps hps hseams
    rw [stripComments, hps.replaceComments_eq, hps.replaceComments_eq]
    apply hseams.cost_eq
  · intro l r
    constructor
    · intro hjoins
      obtain ⟨a, b, hglued⟩ := exists_glued hjoins
      have hbetween := commentBetween_of_notMem hglued.1 hglued.2.1 l r
      refine ⟨a, b, _, hbetween, ?_⟩
      rw [stripComments, hbetween.replaceComments_eq, hbetween.replaceComments_eq]
      apply hglued.cost_ne
    · rintro ⟨a, b, t, hbetween, hne⟩
      by_contra hjoins
      apply hne
      rw [stripComments, hbetween.replaceComments_eq, hbetween.replaceComments_eq,
        List.append_nil, List.append_assoc _ [' ']]
      apply cost_insert_space
      apply apart_concat_cons hjoins

theorem sum_count_stripComments_eq_spaced_call :
  Passages "f(--[[x]]a)--[[".toList
      [.char 'f', .char '(', .comment 0 ['x'], .char 'a', .char ')', .opener 0]
    ∧ SeamsApart [] [.char 'f', .char '(', .comment 0 ['x'], .char 'a', .char ')', .opener 0]
    ∧ ((lines (stripComments "f(--[[x]]a)--[[".toList)).map Line.count).sum
      = ((lines (replaceComments [' '] "f(--[[x]]a)--[[".toList)).map Line.count).sum
    ∧ Joins '.' '.'
    ∧ ∃ a b t, CommentBetween (a ++ ['.']) ('.' :: b) t
      ∧ ((lines (stripComments t)).map Line.count).sum
        ≠ ((lines (replaceComments [' '] t)).map Line.count).sum
  := by
  have hps : Passages "f(--[[x]]a)--[[".toList
      [.char 'f', .char '(', .comment 0 ['x'], .char 'a', .char ')', .opener 0] := by
    have htext : "f(--[[x]]a)--[[".toList = 'f' :: '(' :: (commentOpener 0
        ++ (['x'] ++ commentCloser 0 ++ 'a' :: ')' :: (commentOpener 0 ++ []))) := by decide
    rw [htext]
    apply Passages.plain (by decide)
    apply Passages.plain (by decide)
    apply Passages.comment ((standsFirst_iff (commentCloser_ne_nil 0) _ _).mpr (by decide))
    apply Passages.plain (by decide)
    apply Passages.plain (by decide)
    apply Passages.opener (by decide) .nil
  have hseams : SeamsApart []
      [.char 'f', .char '(', .comment 0 ['x'], .char 'a', .char ')', .opener 0] := by
    have hnil (s : Text) : SeamsApart s [] := by
      intro before level inside after heq
      simp at heq
    have hcall : ¬ Joins '(' 'a' := by decide
    simp [seamsApart_cons_iff, hnil, Apart, Passage.kept, Passage.filled, hcall]
  exact ⟨hps, hseams, sum_count_stripComments_eq_spaced.1 _ _ hps hseams, .dots,
    (sum_count_stripComments_eq_spaced.2 _ _).mp .dots⟩

/-- Two names with a comment between them are one name without it. -/
theorem sum_count_stripComments_names :
  ((lines (stripComments "a--[[x]]b".toList)).map Line.count).sum
    ≠ ((lines (replaceComments [' '] "a--[[x]]b".toList)).map Line.count).sum
  := by decide +kernel

end CartTokens
