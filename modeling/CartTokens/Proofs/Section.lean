import CartTokens.Section
import CartTokens.Proofs.ContentLines

/-!
# Lines and sections

A text that begins on a new line after another one adds its lines to those of the other
(`Text.lines_append`), and lines without returns at their ends are read back from their join
(`Text.join_lines`).

The sections of a cartridge are read off its lines.  Lines without a marker are one section
(`Section.ofLines_of_no_marker`), a marker begins another one
(`Section.ofLines_append_marker`), and of several sections with one name the last one counts
(`Section.body?_split`).
-/

namespace CartTokens

namespace Text

/-! ### Lines -/

theorem lines_line {l : Text} (h : '\n' ∉ l) (hne : l ≠ []) :
  lines l = [l]
  := by
  rw [lines, pieces_line h hne, List.map_singleton, chomp_of_not_mem h]

theorem lines_append_break {l : Text} (h : '\n' ∉ l) (t : Text) :
  lines (l ++ '\n' :: t) = chomp (l ++ ['\n']) :: lines t
  := by
  rw [lines, pieces_append_break h, List.map_cons]
  rfl

/-- A line without a return at its end only loses its break. -/
theorem chomp_append_break {l : Text} (h : l.getLast? ≠ some '\r') :
  chomp (l ++ ['\n']) = l
  := by
  rw [chomp, List.reverse_append, List.reverse_singleton, List.singleton_append]
  split
  · rename_i rest hl
    rw [List.cons.injEq, List.reverse_eq_iff, List.reverse_cons] at hl
    rw [hl.2, List.getLast?_concat] at h
    contradiction
  · rename_i hl
    rw [← (List.cons.inj hl).2, List.reverse_reverse]
  · rename_i hnot
    exact absurd rfl (hnot _)

/-- The text `t` is empty or begins on a new line after `s`. -/
def StartsLine (s t : Text) : Prop :=
  t = [] ∨ s = [] ∨ s.getLast? = some '\n'

theorem startsLine_append_break (s t : Text) :
  StartsLine (s ++ ['\n']) t
  := .inr (.inr List.getLast?_concat)

theorem getLast?_append_break (l : Text) {t : Text} (hne : t ≠ []) :
  (l ++ '\n' :: t).getLast? = t.getLast?
  := by
  rw [List.append_cons]
  apply List.getLast?_append_of_ne_nil _ hne

theorem StartsLine.of_append_break {l s t : Text} (h : StartsLine (l ++ '\n' :: s) t) :
  StartsLine s t
  := by
  rcases h with rfl | hnil | hlast
  · exact .inl rfl
  · simp at hnil
  · by_cases hne : s = []
    · exact .inr (.inl hne)
    · rw [getLast?_append_break l hne] at hlast
      exact .inr (.inr hlast)

/-- The lines of a text that begins on a new line are added to those before it. -/
theorem lines_append {s t : Text} (h : StartsLine s t) :
  lines (s ++ t) = lines s ++ lines t
  := by
  induction s using line_induction with
  | line l hl =>
    rcases h with rfl | rfl | hlast
    · rw [List.append_nil]
      exact (List.append_nil _).symm
    · rfl
    · exact absurd (List.mem_of_getLast? hlast) hl
  | cut l s hl ih =>
    rw [List.append_assoc, List.cons_append, lines_append_break hl, lines_append_break hl,
      ih h.of_append_break]
    rfl

/-- The content of a text that begins on a new line is added to that before it. -/
theorem contentLines_append {s t : Text} (h : StartsLine s t) :
  contentLines (s ++ t) = contentLines s ++ contentLines t
  := by
  simp only [contentLines_eq_lines, lines_append h, List.map_append, List.filter_append]

theorem pieces_eq_nil_iff (t : Text) :
  pieces t = [] ↔ t = []
  := by
  constructor
  · intro h
    rw [← flatten_pieces t, h]
    rfl
  · rintro rfl
    rfl

/-- Something follows a break in a text that does not end in a break. -/
theorem ne_nil_of_getLast?_ne {l t : Text} (h : (l ++ '\n' :: t).getLast? ≠ some '\n') :
  t ≠ []
  := by
  rintro rfl
  exact h List.getLast?_concat

/-- The text does not end in white space. -/
def EndsSolid (t : Text) : Prop :=
  ∀ c ∈ t.getLast?, ¬ isSpace c

theorem endsSolid_trim (t : Text) :
  EndsSolid (trim t)
  := ((trim_eq_self_iff (trim t)).mp (trim_trim t)).2

theorem EndsSolid.append_left {t : Text} (h : EndsSolid t) (hne : t ≠ []) (s : Text) :
  EndsSolid (s ++ t)
  := by
  rwa [EndsSolid, List.getLast?_append_of_ne_nil s hne]

theorem EndsSolid.getLast?_ne {t : Text} (h : EndsSolid t) {c : Char} (hc : isSpace c) :
  t.getLast? ≠ some c
  := fun hlast => h c hlast hc

/-- A text that does not end in white space has the same lines before a break. -/
theorem EndsSolid.lines_append_newline {t : Text} (h : EndsSolid t) (hne : t ≠ []) :
  lines (t ++ ['\n']) = lines t
  := by
  induction t using line_induction with
  | line l hl =>
    rw [lines_append_break hl, lines_line hl hne,
      chomp_append_break (h.getLast?_ne (by decide))]
    rfl
  | cut l t hl ih =>
    have hne : t ≠ [] := ne_nil_of_getLast?_ne (h.getLast?_ne (by decide))
    rw [EndsSolid, getLast?_append_break l hne] at h
    rw [List.append_assoc, List.cons_append, lines_append_break hl, lines_append_break hl,
      ih h hne]

/-- The lines of a text that a break follows; an empty text is one line. -/
def above (t : Text) : List Text :=
  if t = [] then [[]] else lines t

theorem join_above (t : Text) :
  join ['\n'] (above t) = join ['\n'] (lines t)
  := by
  rw [above]
  split
  · rename_i h
    rw [h]
    rfl
  · rfl

theorem eq_nil_or_mem_of_mem_above {t line : Text} (h : line ∈ above t) :
  line = [] ∨ line ∈ lines t
  := by
  rw [above] at h
  split at h
  · exact .inl (List.mem_singleton.mp h)
  · exact .inr h

/-- The lines on both sides of a break. -/
theorem EndsSolid.lines_append_break {t : Text} (h : EndsSolid t) (s : Text) :
  lines (t ++ '\n' :: s) = above t ++ lines s
  := by
  rw [List.append_cons, lines_append (startsLine_append_break t s), above]
  split
  · rename_i hnil
    rw [hnil]
    rfl
  · rename_i hne
    rw [h.lines_append_newline hne]

/-- Lines without returns before their breaks are read back from their join. -/
theorem join_lines {t : Text} (hreturn : ¬ ['\r', '\n'] <:+: t)
    (hbreak : t.getLast? ≠ some '\n') :
  join ['\n'] (lines t) = t
  := by
  induction t using line_induction with
  | line l hl =>
    by_cases hne : l = []
    · subst hne
      rfl
    · rw [lines_line hl hne]
      exact List.intercalate_singleton
  | cut l t hl ih =>
    have hne := ne_nil_of_getLast?_ne hbreak
    have hlast : l.getLast? ≠ some '\r' := by
      intro hlast
      obtain ⟨front, rfl⟩ := List.getLast?_eq_some_iff.mp hlast
      exact hreturn ⟨front, t, by simp⟩
    have hrest : ¬ ['\r', '\n'] <:+: t := by
      intro h
      apply hreturn
      rw [List.append_cons]
      exact h.trans (List.suffix_append _ t).isInfix
    have hlines : lines t ≠ [] := by
      rwa [lines, Ne, List.map_eq_nil_iff, pieces_eq_nil_iff]
    rw [getLast?_append_break l hne] at hbreak
    rw [lines_append_break hl, chomp_append_break hlast, join,
      List.intercalate_cons_of_ne_nil hlines, List.append_assoc]
    exact congrArg (l ++ '\n' :: ·) (ih hrest hbreak)

end Text

namespace Section

open Text

/-! ### Blocks -/

theorem map_fst_blocks (name : Text) (ls : List Text) :
  (blocks name ls).map Prod.fst = name :: ls.filter isMarker
  := by
  induction ls generalizing name with
  | nil => rfl
  | cons line ls ih =>
    rw [blocks]
    split
    · rename_i h
      rw [List.map_cons, ih, List.filter_cons_of_pos h]
    · rename_i h
      rw [List.filter_cons_of_neg h, ← ih name]
      split
      · rename_i hnil
        have hone := ih name
        rw [hnil] at hone
        contradiction
      · rename_i hcons
        rw [hcons]
        rfl

theorem exists_blocks_eq_cons (name : Text) (ls : List Text) :
  ∃ (body : List Text) (others : List (Text × List Text)),
    blocks name ls = (name, body) :: others
  := by
  have h := map_fst_blocks name ls
  cases hb : blocks name ls with
  | nil =>
    rw [hb] at h
    contradiction
  | cons first others =>
    obtain ⟨n, body⟩ := first
    rw [hb] at h
    obtain ⟨rfl, -⟩ := List.cons.inj h
    exact ⟨body, others, rfl⟩

theorem blocks_cons_of_not_isMarker {line : Text} (h : ¬ isMarker line) {name : Text}
    {ls body : List Text} {others : List (Text × List Text)}
    (hb : blocks name ls = (name, body) :: others) :
  blocks name (line :: ls) = (name, line :: body) :: others
  := by
  rw [blocks, if_neg h, hb]

theorem blocks_cons_of_isMarker {line : Text} (h : isMarker line) (name : Text)
    (ls : List Text) :
  blocks name (line :: ls) = (name, []) :: blocks line ls
  := by
  rw [blocks, if_pos h]

/-- Lines without a marker are one block. -/
theorem blocks_of_no_marker {ls : List Text} (h : ∀ line ∈ ls, ¬ isMarker line) (name : Text) :
  blocks name ls = [(name, ls)]
  := by
  induction ls with
  | nil => rfl
  | cons line ls ih =>
    rw [List.forall_mem_cons] at h
    exact blocks_cons_of_not_isMarker h.1 (ih h.2)

/-- A marker ends the blocks before it and begins a block of its own. -/
theorem blocks_append_marker {marker : Text} (h : isMarker marker) (name : Text)
    (ls rest : List Text) :
  blocks name (ls ++ marker :: rest) = blocks name ls ++ blocks marker rest
  := by
  induction ls generalizing name with
  | nil => exact blocks_cons_of_isMarker h name rest
  | cons line ls ih =>
    by_cases hline : isMarker line
    · rw [List.cons_append, blocks_cons_of_isMarker hline, blocks_cons_of_isMarker hline, ih]
      rfl
    · obtain ⟨body, others, hb⟩ := exists_blocks_eq_cons name ls
      have hall := ih name
      rw [hb, List.cons_append] at hall
      rw [List.cons_append, blocks_cons_of_not_isMarker hline hall,
        blocks_cons_of_not_isMarker hline hb]
      rfl

/-! ### Sections by their names -/

theorem body?_cons (s : Section) (ss : List Section) (name : Text) :
  body? (s :: ss) name = if s.name = name then some s.body else body? ss name
  := by
  by_cases h : s.name = name
  · rw [body?, List.find?_cons_of_pos (by simpa using h), if_pos h]
    rfl
  · rw [body?, List.find?_cons_of_neg (by simpa using h), if_neg h]
    rfl

theorem body?_append (ss ts : List Section) (name : Text) :
  body? (ss ++ ts) name = (body? ss name).or (body? ts name)
  := by
  rw [body?, List.find?_append, Option.map_or]
  rfl

theorem body?_eq_none_iff (ss : List Section) (name : Text) :
  body? ss name = none ↔ name ∉ ss.map Section.name
  := by
  induction ss with
  | nil => simp [body?]
  | cons s ss ih =>
    rw [body?_cons, List.map_cons, List.mem_cons, not_or, ← ih]
    by_cases h : s.name = name
    · simp [h]
    · simp [h, Ne.symm h]

/-- Of several sections with one name the last one stays. -/
theorem body?_lastOnly (ss : List Section) (name : Text) :
  body? (lastOnly ss) name = body? ss.reverse name
  := by
  induction ss with
  | nil => rfl
  | cons s rest ih =>
    have hlater : rest.any (·.name == s.name) ↔ body? rest.reverse s.name ≠ none := by
      rw [Ne, body?_eq_none_iff, List.any_eq_true]
      simp
    have hone : body? [s] name = if s.name = name then some s.body else none := by
      rw [body?_cons]
      rfl
    rw [lastOnly, List.reverse_cons, body?_append, hone]
    by_cases hs : s.name = name
    · subst hs
      split
      · rename_i h
        rw [ih, Option.or_of_isSome (Option.isSome_iff_ne_none.mpr (hlater.mp h))]
      · rename_i h
        rw [body?_cons, not_not.mp (mt hlater.mpr h), if_pos rfl, if_pos rfl, Option.none_or]
    · rw [if_neg hs, Option.or_none, ← ih]
      split
      · rfl
      · rw [body?_cons, if_neg hs]

/-- All sections of lines in their order, the first one under the given name. -/
def ofLines (first : Text) (ls : List Text) : List Section :=
  (blocks first ls).map fun (name, body) => ⟨name, join ['\n'] body⟩

theorem body?_split (t name : Text) :
  body? (split t) name = body? (ofLines Cartridge.codeMarker (lines t)).reverse name
  := body?_lastOnly _ name

theorem map_name_ofLines (first : Text) (ls : List Text) :
  (ofLines first ls).map Section.name = first :: ls.filter isMarker
  := by
  rw [← map_fst_blocks, ofLines, List.map_map]
  rfl

theorem ofLines_of_no_marker {ls : List Text} (h : ∀ line ∈ ls, ¬ isMarker line) (first : Text) :
  ofLines first ls = [⟨first, join ['\n'] ls⟩]
  := by
  rw [ofLines, blocks_of_no_marker h]
  rfl

theorem ofLines_append_marker {marker : Text} (h : isMarker marker) (first : Text)
    (ls rest : List Text) :
  ofLines first (ls ++ marker :: rest) = ofLines first ls ++ ofLines marker rest
  := by
  rw [ofLines, blocks_append_marker h, List.map_append]
  rfl

/-- The lines below a marker are its section, if it does not come again. -/
theorem body?_ofLines_append (first : Text) {ls rest : List Text}
    (hls : ∀ line ∈ ls, ¬ isMarker line) (hrest : ∀ line ∈ rest.head?, isMarker line)
    (hfirst : first ∉ rest) :
  body? (ofLines first (ls ++ rest)).reverse first = some (join ['\n'] ls)
  := by
  cases rest with
  | nil =>
    rw [List.append_nil, ofLines_of_no_marker hls]
    exact (body?_cons _ _ _).trans (if_pos rfl)
  | cons marker rest =>
    have hnone : body? (ofLines marker rest).reverse first = none := by
      rw [body?_eq_none_iff, List.map_reverse, List.mem_reverse, map_name_ofLines]
      intro hmem
      rcases List.mem_cons.mp hmem with rfl | hmem
      · exact hfirst List.mem_cons_self
      · exact hfirst (List.mem_cons_of_mem marker (List.mem_of_mem_filter hmem))
    rw [ofLines_append_marker (hrest marker rfl), List.reverse_append, body?_append, hnone,
      ofLines_of_no_marker hls]
    exact (body?_cons _ _ _).trans (if_pos rfl)

end Section

end CartTokens
