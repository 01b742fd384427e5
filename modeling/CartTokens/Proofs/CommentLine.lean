import CartTokens.Proofs.Count
import CartTokens.Proofs.Passage

/-!
# Lines that are comments

Block comments are taken out before lines are read, so a block comment may open on a line that
is a comment and go on behind it, or take away the dashes that made the line a comment.  A line
of which every block comment begins behind the dashes and ends on the line is worth an empty one
(`sum_count_stripComments_comment_line`).
-/

namespace CartTokens

open Text

/-! ### Where comments stand -/

/-- Where the comments among the passages begin and end, the first passage being `start`
characters into the text. -/
def commentSpans (start : Nat) : List Passage → List (Nat × Nat)
  | [] => []
  | .comment level inside :: ps =>
    let stop := start + (Passage.comment level inside).text.length
    (start, stop) :: commentSpans stop ps
  | p :: ps => commentSpans (start + p.text.length) ps

/-- The comments that begin before `stop` begin at `first` or later and end at `stop` or before. -/
def CommentsWithin (start first stop : Nat) (ps : List Passage) : Prop :=
  ∀ span ∈ commentSpans start ps, span.1 < stop → first ≤ span.1 ∧ span.2 ≤ stop

instance (start first stop : Nat) (ps : List Passage) :
    Decidable (CommentsWithin start first stop ps) :=
  inferInstanceAs (Decidable (∀ _ ∈ _, _))

theorem CommentsWithin.of_cons {start first stop : Nat} {p : Passage} {ps : List Passage}
    (h : CommentsWithin start first stop (p :: ps)) :
  CommentsWithin (start + p.text.length) first stop ps
  := by
  intro span hspan
  apply h span
  cases p with
  | comment level inside => apply List.mem_cons_of_mem _ hspan
  | opener level => exact hspan
  | char c => exact hspan

theorem CommentsWithin.of_comment {start first stop level : Nat} {inside : Text}
    {ps : List Passage} (h : CommentsWithin start first stop (.comment level inside :: ps))
    (hstart : start < stop) :
  first ≤ start ∧ start + (Passage.comment level inside).text.length ≤ stop
  := h _ List.mem_cons_self hstart

/-! ### What is left of a line -/

theorem Passage.kept_eq_text_or (p : Passage) :
  p.kept = p.text ∨ ∃ level inside, p = .comment level inside
  := by
  cases p with
  | comment level inside => exact .inr ⟨level, inside, rfl⟩
  | opener level => exact .inl rfl
  | char c => exact .inl rfl

/-- Nothing is left that was not there. -/
theorem mem_flatMap_text {ps : List Passage} {c : Char} (h : c ∈ ps.flatMap Passage.kept) :
  c ∈ ps.flatMap Passage.text
  := by
  obtain ⟨p, hp, hc⟩ := List.mem_flatMap.mp h
  apply List.mem_flatMap.mpr ⟨p, hp, _⟩
  obtain hkept | ⟨level, inside, rfl⟩ := p.kept_eq_text_or
  · rwa [hkept] at hc
  · exact absurd hc List.not_mem_nil

/-- What stands before all comments is left. -/
theorem CommentsWithin.take_isPrefix {start n stop : Nat} {ps : List Passage}
    (h : CommentsWithin start (start + n) stop ps) (hn : start + n ≤ stop) :
  (ps.flatMap Passage.text).take n <+: ps.flatMap Passage.kept
  := by
  induction ps generalizing start n with
  | nil => simp
  | cons p ps ih =>
    obtain hkept | ⟨level, inside, rfl⟩ := p.kept_eq_text_or
    · rw [List.flatMap_cons, List.flatMap_cons, List.take_append, hkept]
      by_cases hle : n ≤ p.text.length
      · rw [Nat.sub_eq_zero_of_le hle, List.take_zero, List.append_nil]
        apply (List.take_prefix n p.text).trans (List.prefix_append _ _)
      · rw [List.take_of_length_le (Nat.le_of_not_le hle), List.prefix_append_right_inj]
        have hsplit : start + n = start + p.text.length + (n - p.text.length) := by omega
        rw [hsplit] at h hn
        apply ih h.of_cons hn
    · obtain rfl : n = 0 := by
        by_contra hpos
        have hfirst := (h.of_comment (by omega)).1
        omega
      apply List.nil_prefix

theorem Passages.of_cons {t : Text} {p : Passage} {ps : List Passage} (h : Passages t (p :: ps)) :
  ∃ rest, t = p.text ++ rest ∧ Passages rest ps
  := by
  cases h with
  | @comment level inside rest _ hfirst h =>
    refine ⟨rest, ?_, h⟩
    simp [Passage.text]
  | @opener level rest _ hopen h => exact ⟨rest, rfl, h⟩
  | @char c rest _ hnone h => exact ⟨rest, rfl, h⟩

/-- The first passage of a text is the end of its first line or a part of that line, if no
comment reaches over the end. -/
theorem CommentsWithin.eq_or_isPrefix {start first : Nat} {w : Text} {p : Passage}
    {ps : List Passage} (h : CommentsWithin start first (start + w.length) (p :: ps))
    {b rest : Text} (heq : w ++ '\n' :: b = p.text ++ rest) :
  w = [] ∧ p = .char '\n' ∨ p.text <+: w
  := by
  have hfront : p.text <+: w ++ '\n' :: b := ⟨rest, heq.symm⟩
  cases p with
  | comment level inside =>
    cases w with
    | nil => exact absurd (List.cons.inj heq).1 (by decide)
    | cons d w =>
      right
      apply List.prefix_of_prefix_length_le hfront (List.prefix_append _ _)
      have hstop := (h.of_comment (by simp)).2
      omega
  | opener level =>
    right
    apply isPrefix_of_append_cons _ hfront
    simp [Passage.text, commentOpener]
  | char c =>
    cases w with
    | nil => exact .inl ⟨rfl, by rw [(List.cons.inj heq).1]⟩
    | cons d w =>
      right
      apply List.prefix_of_prefix_length_le hfront (List.prefix_append _ _)
      simp [Passage.text]

/-- Where no comment reaches over the end of a line, the line break is a passage of its own. -/
theorem Passages.exists_break {w b : Text} {ps : List Passage}
    (h : Passages (w ++ '\n' :: b) ps) {start first : Nat}
    (hin : CommentsWithin start first (start + w.length) ps) :
  ∃ qs rs, ps = qs ++ .char '\n' :: rs ∧ qs.flatMap Passage.text = w ∧ Passages b rs
  := by
  induction ps generalizing w start with
  | nil => exact absurd h.flatMap_text (by simp)
  | cons p ps ih =>
    obtain ⟨rest, heq, hrest⟩ := h.of_cons
    obtain ⟨rfl, rfl⟩ | ⟨w, rfl⟩ := hin.eq_or_isPrefix heq
    · obtain ⟨-, rfl⟩ := List.cons.inj heq
      exact ⟨[], ps, rfl, rfl, hrest⟩
    · rw [List.append_assoc] at heq
      rw [← List.append_cancel_left heq] at hrest
      have hin := hin.of_cons
      rw [List.length_append, ← Nat.add_assoc] at hin
      obtain ⟨qs, rs, rfl, rfl, hrs⟩ := ih hrest hin
      exact ⟨p :: qs, rs, rfl, rfl, hrs⟩

/-! ### Lines that are comments -/

/-- Comments behind a line break are taken out as if nothing stood before it, if no comment
opens there. -/
theorem stripComments_append_break {a : Text} (h : ¬ "--[".toList <:+: a) (t : Text) :
  stripComments (a ++ '\n' :: t) = a ++ '\n' :: stripComments t
  := by
  have hbreak : '\n' ∉ "--[".toList := by decide
  induction a with
  | nil =>
    apply replaceComments_cons []
    apply not_commentOpener_isPrefix
    intro hstart
    exact absurd (isPrefix_of_append_cons (s := []) hbreak hstart) (by decide)
  | cons c a ih =>
    rw [List.infix_cons_iff, not_or] at h
    rw [List.cons_append, List.cons_append, ← ih h.2]
    apply replaceComments_cons []
    apply not_commentOpener_isPrefix
    intro hstart
    apply h.1 (isPrefix_of_append_cons (s := c :: a) hbreak hstart)

/-- Of a line that begins with dashes a line that begins with dashes is left, if its block
comments begin behind the dashes and end on it. -/
theorem exists_stripComments_dashes {b c : Text} (hc : '\n' ∉ c) {ps : List Passage}
    (hps : Passages ("--".toList ++ c ++ '\n' :: b) ps)
    (hin : CommentsWithin 0 2 (2 + c.length) ps) :
  ∃ l, '\n' ∉ l ∧ "--".toList <+: l
    ∧ stripComments ("--".toList ++ c ++ '\n' :: b) = l ++ '\n' :: stripComments b
  := by
  have hdashes : "--".toList <+: ps.flatMap Passage.kept := by
    have hfirst : CommentsWithin 0 (0 + 2) (2 + c.length) ps := hin
    have hfront := hfirst.take_isPrefix (Nat.le_add_right 2 c.length)
    rwa [hps.flatMap_text] at hfront
  have hwithin : CommentsWithin 0 2 (0 + ("--".toList ++ c).length) ps := by
    rw [List.length_append, Nat.zero_add]
    apply hin
  obtain ⟨qs, rs, rfl, hqs, hrs⟩ := hps.exists_break hwithin
  have hkept : (qs ++ .char '\n' :: rs).flatMap Passage.kept
      = qs.flatMap Passage.kept ++ '\n' :: stripComments b := by
    rw [List.flatMap_append, List.flatMap_cons, stripComments, hrs.replaceComments_eq]
    rfl
  use qs.flatMap Passage.kept
  refine ⟨fun hmem => ?_, ?_, ?_⟩
  · have hmem := mem_flatMap_text hmem
    rw [hqs] at hmem
    simp [hc] at hmem
  · rw [hkept] at hdashes
    apply isPrefix_of_append_cons (by decide) hdashes
  · rw [← hkept]
    apply hps.replaceComments_eq

/-- A line that is a comment is worth an empty one, as long as the block comments that begin on
it begin behind its dashes and end on it. -/
theorem sum_count_stripComments_comment_line {a b c : Text} (ha : ¬ "--[".toList <:+: a)
    (hc : '\n' ∉ c) {ps : List Passage} (hps : Passages ("--".toList ++ c ++ '\n' :: b) ps)
    (hin : CommentsWithin 0 2 (2 + c.length) ps) :
  ((lines (stripComments (a ++ "\n--".toList ++ c ++ '\n' :: b))).map Line.count).sum
    = ((lines (stripComments (a ++ "\n\n".toList ++ b))).map Line.count).sum
  := by
  obtain ⟨l, hl, hdashes, hline⟩ := exists_stripComments_dashes hc hps hin
  have hcomment : Line.count l = 0 := by
    apply Line.count_of_startsComment
    rw [Line.startsComment_iff]
    exact ⟨"--".toList, by decide, hdashes⟩
  have hleft : a ++ "\n--".toList ++ c ++ '\n' :: b
      = a ++ '\n' :: ("--".toList ++ c ++ '\n' :: b) := by simp
  have hright : a ++ "\n\n".toList ++ b = a ++ '\n' :: ([] ++ '\n' :: b) := by simp
  calc
    ((lines (stripComments (a ++ "\n--".toList ++ c ++ '\n' :: b))).map Line.count).sum
        = cost a + (cost l + cost (stripComments b)) := by
      rw [sum_count_eq_cost, hleft, stripComments_append_break ha, hline, cost_append_break,
        cost_append_break]
    _ = cost a + (cost [] + cost (stripComments b)) := by
      rw [cost_line hl, hcomment, cost_line List.not_mem_nil, Line.count_nil]
    _ = ((lines (stripComments (a ++ "\n\n".toList ++ b))).map Line.count).sum := by
      rw [sum_count_eq_cost, hright, stripComments_append_break ha,
        stripComments_append_break (by decide), cost_append_break, cost_append_break]

theorem sum_count_stripComments_comment_line_closed :
  ¬ "--[".toList <:+: "x=1".toList ∧ '\n' ∉ " --[[y]] ---[[".toList
    ∧ Passages ("--".toList ++ " --[[y]] ---[[".toList ++ '\n' :: ['z'])
      [.char '-', .char '-', .char ' ', .comment 0 ['y'], .char ' ', .char '-', .opener 0,
        .char '\n', .char 'z']
    ∧ CommentsWithin 0 2 (2 + " --[[y]] ---[[".toList.length)
      [.char '-', .char '-', .char ' ', .comment 0 ['y'], .char ' ', .char '-', .opener 0,
        .char '\n', .char 'z']
    ∧ ((lines (stripComments ("x=1".toList ++ "\n--".toList ++ " --[[y]] ---[[".toList
        ++ '\n' :: ['z']))).map Line.count).sum
      = ((lines (stripComments ("x=1".toList ++ "\n\n".toList ++ ['z']))).map Line.count).sum
  := by
  have htext : "--".toList ++ " --[[y]] ---[[".toList ++ '\n' :: ['z']
      = '-' :: '-' :: ' ' :: (commentOpener 0 ++ (['y'] ++ commentCloser 0
        ++ ' ' :: '-' :: (commentOpener 0 ++ ['\n', 'z']))) := by decide
  have hps : Passages ("--".toList ++ " --[[y]] ---[[".toList ++ '\n' :: ['z'])
      [.char '-', .char '-', .char ' ', .comment 0 ['y'], .char ' ', .char '-', .opener 0,
        .char '\n', .char 'z'] := by
    rw [htext]
    apply Passages.plain (by decide)
    apply Passages.plain (by decide)
    apply Passages.plain (by decide)
    apply Passages.comment ((standsFirst_iff (commentCloser_ne_nil 0) _ _).mpr (by decide))
    apply Passages.plain (by decide)
    apply Passages.plain (by decide)
    apply Passages.opener (by decide)
    apply Passages.plain (by decide)
    apply Passages.plain (by decide) .nil
  exact ⟨by decide, by decide, hps, by decide,
    sum_count_stripComments_comment_line (by decide) (by decide) hps (by decide)⟩

/-- A block comment that opens on a line behind three dashes takes out the lines below. -/
theorem sum_count_stripComments_three_dashes :
  ¬ "--[".toList <:+: [] ∧ '\n' ∉ "-[[".toList
    ∧ (∀ level, ¬ '[' :: List.replicate level '=' ++ ['['] <+: "-[[".toList)
    ∧ ((lines (stripComments ([] ++ "\n--".toList ++ "-[[".toList
        ++ '\n' :: "x=1\n--]]\n".toList))).map Line.count).sum
      ≠ ((lines (stripComments ([] ++ "\n\n".toList ++ "x=1\n--]]\n".toList))).map Line.count).sum
  := by
  refine ⟨by decide, by decide, ?_, by decide +kernel⟩
  intro level hopen
  exact absurd (List.cons_prefix_cons.mp hopen).1 (by decide)

end CartTokens
