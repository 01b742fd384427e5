import CartTokens.Text.Basic
import Mathlib.Data.List.DropRight

/-!
# The content of a text

`Text.contentLines t` is the list of the lines of `t`, trimmed and without those that are
blank.  A line break cuts it in two (`Text.contentLines_append_break`), and white space at
either end of a text adds nothing to it (`Text.contentLines_blank_append`,
`Text.contentLines_append_blank`).  It may be read off the pieces of a text or off its lines
as well (`Text.contentLines_eq_pieces`, `Text.contentLines_eq_lines`).
-/

namespace CartTokens

namespace Text

/-! ### Trimming -/

theorem isBlankLine_iff (t : Text) :
  isBlankLine t ↔ ∀ c ∈ t, isSpace c
  := List.all_eq_true

theorem not_isSpace_of_all {t : Text} (h : t.all fun c => !isSpace c) :
  ∀ c ∈ t, ¬ isSpace c
  := by
  intro c hc hspace
  have hno := List.all_eq_true.mp h c hc
  rw [hspace] at hno
  contradiction

@[simp]
theorem isBlankLine_append (s t : Text) :
  isBlankLine (s ++ t) = (isBlankLine s && isBlankLine t)
  := List.all_append

theorem isBlankLine_append_break (s t : Text) :
  isBlankLine (s ++ '\n' :: t) ↔ isBlankLine s ∧ isBlankLine t
  := by
  have h : isBlankLine ('\n' :: t) = isBlankLine t := rfl
  rw [isBlankLine_append, h, Bool.and_eq_true]

theorem dropWhile_isSpace_of_isBlankLine {w : Text} (h : isBlankLine w) :
  w.dropWhile isSpace = []
  := List.dropWhile_eq_nil_iff.mpr ((isBlankLine_iff w).mp h)

theorem dropEndWhile_append_blank (t : Text) {w : Text} (h : isBlankLine w) :
  dropEndWhile isSpace (t ++ w) = dropEndWhile isSpace t
  := by
  unfold dropEndWhile
  rw [List.reverse_append, List.dropWhile_append_of_pos]
  intro c hc
  apply (isBlankLine_iff w).mp h
  rwa [List.mem_reverse] at hc

/-- White space before a text is trimmed off. -/
theorem trim_blank_append {w : Text} (h : isBlankLine w) (t : Text) :
  trim (w ++ t) = trim t
  := by
  unfold trim
  rw [List.dropWhile_append_of_pos ((isBlankLine_iff w).mp h)]

/-- White space after a text is trimmed off. -/
theorem trim_append_blank (t : Text) {w : Text} (h : isBlankLine w) :
  trim (t ++ w) = trim t
  := by
  unfold trim
  rw [List.dropWhile_append]
  split
  · rename_i ht
    rw [List.isEmpty_iff.mp ht, dropWhile_isSpace_of_isBlankLine h]
  · apply dropEndWhile_append_blank _ h

/-- Every text is its trimmed form between white space. -/
theorem exists_eq_append_trim (t : Text) :
  ∃ v w : Text, isBlankLine v ∧ isBlankLine w ∧ t = v ++ trim t ++ w
  := by
  use t.takeWhile isSpace, (t.dropWhile isSpace).rtakeWhile isSpace
  refine ⟨?_, ?_, ?_⟩
  · rw [isBlankLine_iff]
    intro c hc
    apply List.mem_takeWhile_imp hc
  · rw [isBlankLine_iff]
    intro c hc
    apply List.mem_rtakeWhile_imp hc
  · have h : trim t ++ (t.dropWhile isSpace).rtakeWhile isSpace = t.dropWhile isSpace :=
      List.rdropWhile_append_rtakeWhile
    rw [List.append_assoc, h, List.takeWhile_append_dropWhile]

/-- Trimming a second time changes nothing. -/
theorem trim_trim (t : Text) :
  trim (trim t) = trim t
  := by
  obtain ⟨v, w, hv, hw, ht⟩ := exists_eq_append_trim t
  nth_rewrite 2 [ht]
  rw [trim_append_blank _ hw, trim_blank_append hv]

/-- Exactly the blank texts have nothing left when trimmed. -/
theorem trim_eq_nil_iff (t : Text) :
  trim t = [] ↔ isBlankLine t
  := by
  constructor
  · intro h
    obtain ⟨v, w, hv, hw, ht⟩ := exists_eq_append_trim t
    rw [ht, h]
    simp [hv, hw]
  · intro h
    rw [trim, dropWhile_isSpace_of_isBlankLine h]
    rfl

theorem dropEndWhile_append (p : Char → Bool) (s t : Text) :
  dropEndWhile p (s ++ t)
    = if (dropEndWhile p t).isEmpty then dropEndWhile p s else s ++ dropEndWhile p t
  := by
  unfold dropEndWhile
  rw [List.reverse_append, List.dropWhile_append, List.isEmpty_reverse]
  split
  · rfl
  · rw [List.reverse_append, List.reverse_reverse]

/-- What is dropped at the end of a text does not reach over a character that is kept. -/
theorem dropEndWhile_append_cons {p : Char → Bool} {c : Char} (hc : ¬ p c) (s t : Text) :
  dropEndWhile p (s ++ c :: t) = s ++ c :: dropEndWhile p t
  := by
  unfold dropEndWhile
  rw [List.reverse_append, List.reverse_cons, List.append_assoc, List.dropWhile_append,
    List.singleton_append, List.dropWhile_cons_of_neg hc]
  split
  · rename_i h
    rw [List.isEmpty_iff.mp h]
    simp
  · simp

/-- A trimmed text has no white space at either end. -/
theorem dropWhile_eq_self_of_trim {t : Text} (h : trim t = t) :
  t.dropWhile isSpace = t ∧ dropEndWhile isSpace t = t
  := by
  have hstart : t.dropWhile isSpace = t := by
    have hle : (trim t).length ≤ (t.dropWhile isSpace).length :=
      (List.rdropWhile_prefix isSpace _).length_le
    rw [h] at hle
    exact (List.dropWhile_suffix _).eq_of_length_le hle
  refine ⟨hstart, ?_⟩
  rwa [trim, hstart] at h

/-- Text after a trimmed beginning is trimmed at its end only. -/
theorem trim_append {s : Text} (hs : trim s = s) (hne : s ≠ []) (t : Text) :
  trim (s ++ t) = s ++ dropEndWhile isSpace t
  := by
  obtain ⟨hstart, hend⟩ := dropWhile_eq_self_of_trim hs
  rw [trim, List.dropWhile_append, hstart, if_neg (by simpa using hne), dropEndWhile_append]
  split
  · rename_i h
    rw [List.isEmpty_iff.mp h, hend, List.append_nil]
  · rfl

/-- A text is trimmed if its first and its last character are not white space. -/
theorem trim_eq_self_iff (t : Text) :
  trim t = t ↔ (∀ c ∈ t.head?, ¬ isSpace c) ∧ ∀ c ∈ t.getLast?, ¬ isSpace c
  := by
  have hstart : t.dropWhile isSpace = t ↔ ∀ c ∈ t.head?, ¬ isSpace c := by
    cases t with
    | nil => simp
    | cons c t => simp [List.dropWhile_eq_self_iff]
  have hend : dropEndWhile isSpace t = t ↔ ∀ c ∈ t.getLast?, ¬ isSpace c := by
    apply List.rdropWhile_eq_self_iff.trans
    cases t using List.reverseRecOn with
    | nil => simp
    | append_singleton t c => simp
  rw [← hstart, ← hend]
  constructor
  · exact dropWhile_eq_self_of_trim
  · rintro ⟨h, h'⟩
    rw [trim, h, h']

theorem dropEndWhile_eq_self {t : Text} (h : ∀ c ∈ t, ¬ isSpace c) :
  dropEndWhile isSpace t = t
  := by
  apply List.rdropWhile_eq_self_iff.mpr
  intro hne
  exact h _ (List.getLast_mem hne)

/-- A text without white space is trimmed. -/
theorem trim_eq_self {t : Text} (h : ∀ c ∈ t, ¬ isSpace c) :
  trim t = t
  := by
  rw [trim, List.dropWhile_eq_self_iff.mpr, dropEndWhile_eq_self h]
  intro hne
  exact h _ (List.getElem_mem hne)

theorem isEmpty_trim (t : Text) :
  (trim t).isEmpty = isBlankLine t
  := by
  rw [Bool.eq_iff_iff, List.isEmpty_iff, trim_eq_nil_iff]

/-! ### Lines -/

/-- A property of texts that holds of every single line, and of a line, a break and a text of
which it holds, holds of all texts. -/
@[elab_as_elim]
theorem line_induction {motive : Text → Prop}
    (line : ∀ l : Text, '\n' ∉ l → motive l)
    (cut : ∀ l t : Text, '\n' ∉ l → motive t → motive (l ++ '\n' :: t)) (t : Text) :
  motive t
  := by
  -- the part of the current line that is already read goes along as `l`
  suffices h : ∀ l : Text, '\n' ∉ l → motive (l ++ t) from h [] List.not_mem_nil
  induction t with
  | nil =>
    intro l hl
    rw [List.append_nil]
    exact line l hl
  | cons c t ih =>
    intro l hl
    by_cases hc : c = '\n'
    · subst hc
      apply cut l t hl (ih [] List.not_mem_nil)
    · rw [List.append_cons]
      apply ih
      simp [hl, Ne.symm hc]

theorem parts_eq_splitOn (sep : Char) (t : Text) :
  parts sep t = t.splitOn sep
  := by
  induction t with
  | nil => rfl
  | cons c cs ih =>
    rw [parts, List.splitOn_cons_eq_if_modifyHead, ← ih]
    by_cases hc : c = sep
    · simp [hc]
    · have hne : parts sep cs ≠ [] := by
        rw [ih]
        apply List.splitOn_ne_nil
      obtain ⟨p, ps, hp⟩ := List.exists_cons_of_ne_nil hne
      simp [hc, hp]

/-- The lines of a text, trimmed and without those that are blank. -/
def contentLines (t : Text) : List Text :=
  ((parts '\n' t).map trim).filter fun line => !line.isEmpty

/-- The content of a text with a line break is that of the two parts. -/
theorem contentLines_append_break (s t : Text) :
  contentLines (s ++ '\n' :: t) = contentLines s ++ contentLines t
  := by
  unfold contentLines
  simp only [parts_eq_splitOn, List.splitOn_append_cons_self, List.map_append, List.filter_append]

theorem contentLines_line {l : Text} (h : '\n' ∉ l) :
  contentLines l = [trim l].filter fun line => !line.isEmpty
  := by
  rw [contentLines, parts_eq_splitOn, List.splitOn_eq_singleton h]
  rfl

/-- A line that is not blank is all the content it has. -/
theorem contentLines_of_not_isBlankLine {l : Text} (h : '\n' ∉ l) (hb : ¬ isBlankLine l) :
  contentLines l = [trim l]
  := by
  rw [contentLines_line h, List.filter_singleton, isEmpty_trim, Bool.eq_false_iff.mpr hb]
  rfl

/-- A blank text has no content, whether or not it has line breaks. -/
theorem contentLines_of_isBlankLine {w : Text} (h : isBlankLine w) :
  contentLines w = []
  := by
  induction w using line_induction with
  | line l hl =>
    rw [contentLines_line hl, (trim_eq_nil_iff l).mpr h]
    rfl
  | cut l t hl ih =>
    rw [isBlankLine_append_break] at h
    obtain ⟨hlb, htb⟩ := h
    rw [contentLines_append_break, contentLines_line hl, (trim_eq_nil_iff l).mpr hlb, ih htb]
    rfl

/-- White space before a text adds nothing to its content. -/
theorem contentLines_blank_append {w : Text} (h : isBlankLine w) (t : Text) :
  contentLines (w ++ t) = contentLines t
  := by
  induction w using line_induction with
  | line v hv =>
    induction t using line_induction with
    | line l hl =>
      have hvl : '\n' ∉ v ++ l := by simp [hv, hl]
      rw [contentLines_line hvl, contentLines_line hl, trim_blank_append h]
    | cut l t hl ih =>
      have hvl : '\n' ∉ v ++ l := by simp [hv, hl]
      rw [← List.append_assoc, contentLines_append_break, contentLines_append_break,
        contentLines_line hvl, contentLines_line hl, trim_blank_append h]
  | cut v w hv ih =>
    rw [isBlankLine_append_break] at h
    obtain ⟨hvb, hwb⟩ := h
    rw [List.append_assoc, List.cons_append, contentLines_append_break,
      contentLines_of_isBlankLine hvb]
    apply ih hwb

/-- White space after a text adds nothing to its content. -/
theorem contentLines_append_blank (t : Text) {w : Text} (h : isBlankLine w) :
  contentLines (t ++ w) = contentLines t
  := by
  induction t using line_induction with
  | line l hl =>
    induction w using line_induction with
    | line v hv =>
      have hlv : '\n' ∉ l ++ v := by simp [hl, hv]
      rw [contentLines_line hlv, contentLines_line hl, trim_append_blank l h]
    | cut v w hv ih =>
      rw [isBlankLine_append_break] at h
      obtain ⟨hvb, hwb⟩ := h
      have hlv : '\n' ∉ l ++ v := by simp [hl, hv]
      rw [← List.append_assoc, contentLines_append_break, contentLines_line hlv,
        contentLines_line hl, trim_append_blank l hvb, contentLines_of_isBlankLine hwb,
        List.append_nil]
  | cut l t hl ih =>
    rw [List.append_assoc, List.cons_append, contentLines_append_break,
      contentLines_append_break, ih]

/-! ### Pieces -/

theorem pieces_line {l : Text} (h : '\n' ∉ l) (hne : l ≠ []) :
  pieces l = [l]
  := by
  induction l with
  | nil => contradiction
  | cons c cs ih =>
    rw [List.mem_cons, not_or] at h
    rw [pieces, if_neg (Ne.symm h.1)]
    cases cs with
    | nil => rfl
    | cons d ds => rw [ih h.2 (List.cons_ne_nil d ds)]

theorem pieces_append_break {l : Text} (h : '\n' ∉ l) (t : Text) :
  pieces (l ++ '\n' :: t) = (l ++ ['\n']) :: pieces t
  := by
  induction l with
  | nil => rfl
  | cons c cs ih =>
    rw [List.mem_cons, not_or] at h
    rw [List.cons_append, pieces, if_neg (Ne.symm h.1), ih h.2]
    rfl

theorem isBlankLine_break : isBlankLine ['\n'] := by decide

/-- The content of a text is that of its pieces. -/
theorem contentLines_eq_pieces (t : Text) :
  contentLines t = ((pieces t).map trim).filter fun line => !line.isEmpty
  := by
  induction t using line_induction with
  | line l hl =>
    rw [contentLines_line hl]
    by_cases hne : l = []
    · subst hne
      rfl
    · rw [pieces_line hl hne]
      rfl
  | cut l t hl ih =>
    rw [contentLines_append_break, contentLines_line hl, ih, pieces_append_break hl,
      List.map_cons, trim_append_blank l isBlankLine_break, ← List.filter_append,
      List.singleton_append]

theorem chomp_of_not_mem {l : Text} (h : '\n' ∉ l) :
  chomp l = l
  := by
  rw [← List.mem_reverse] at h
  unfold chomp
  split
  · rename_i hl
    rw [hl] at h
    exact absurd List.mem_cons_self h
  · rename_i hl
    rw [hl] at h
    exact absurd List.mem_cons_self h
  · rfl

theorem isPrefix_chomp_append_break (l : Text) :
  chomp (l ++ ['\n']) <+: l
  := by
  unfold chomp
  rw [List.reverse_append, List.reverse_singleton, List.singleton_append]
  split
  · rename_i rest h
    have hl : l.reverse = '\r' :: rest := (List.cons.inj h).2
    rw [List.reverse_eq_iff.mp hl, List.reverse_cons]
    apply List.prefix_append
  · rename_i rest _ h
    obtain rfl : l = rest.reverse := List.reverse_eq_iff.mp (List.cons.inj h).2
    exact List.prefix_rfl
  · rename_i _ hnot
    exact absurd rfl (hnot _)

/-- The lines of a text hold no line break. -/
theorem not_mem_of_mem_lines {t l : Text} (h : l ∈ lines t) :
  '\n' ∉ l
  := by
  induction t using line_induction with
  | line l' hl =>
    by_cases hne : l' = []
    · subst hne
      exact absurd h List.not_mem_nil
    · rw [lines, pieces_line hl hne, List.map_singleton, List.mem_singleton,
        chomp_of_not_mem hl] at h
      rwa [h]
  | cut l' t hl ih =>
    rw [lines, pieces_append_break hl, List.map_cons, List.mem_cons] at h
    rcases h with rfl | h
    · exact fun hmem => hl ((isPrefix_chomp_append_break l').subset hmem)
    · exact ih h

/-- What is taken off the end of a line is white space. -/
theorem exists_eq_chomp_append (line : Text) :
  ∃ w : Text, isBlankLine w ∧ line = chomp line ++ w
  := by
  unfold chomp
  split
  · rename_i rest h
    use ['\r', '\n'], by decide
    rw [List.reverse_eq_iff.mp h, List.reverse_cons, List.reverse_cons, List.append_assoc]
    rfl
  · rename_i rest _ h
    use ['\n'], by decide
    rw [List.reverse_eq_iff.mp h, List.reverse_cons]
  · use [], rfl
    rw [List.append_nil]

theorem isPrefix_chomp (line : Text) :
  chomp line <+: line
  := by
  obtain ⟨w, -, hline⟩ := exists_eq_chomp_append line
  use w, hline.symm

theorem trim_chomp (line : Text) :
  trim (chomp line) = trim line
  := by
  obtain ⟨w, hw, hline⟩ := exists_eq_chomp_append line
  nth_rewrite 2 [hline]
  rw [trim_append_blank _ hw]

/-- The content of a text is that of its lines. -/
theorem contentLines_eq_lines (t : Text) :
  contentLines t = ((lines t).map trim).filter fun line => !line.isEmpty
  := by
  rw [contentLines_eq_pieces, lines, List.map_map]
  congr 2
  funext line
  rw [Function.comp_apply, trim_chomp]

end Text

end CartTokens
