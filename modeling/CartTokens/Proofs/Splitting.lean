import CartTokens.Proofs.Section

/-!
# What splitting a cartridge gives

`Section.SplitsInto t sections` says which sections a cartridge has, line by line: their names
are the markers among its lines and the name of the code, and the body of a section is what
stands below the last line with its name, up to the next marker.  What stands before all markers
is code, unless a later section is.  Splitting gives these sections
(`Section.splitsInto_split`).
-/

namespace CartTokens

namespace Section

open Text

/-! ### Markers -/

/-- The text of a marker: two underscores, a word and two underscores. -/
def MarkerText (line : Text) : Prop :=
  ∃ word : Text, word ≠ [] ∧ (∀ c ∈ word, isWordChar c)
    ∧ line = "__".toList ++ word ++ "__".toList

theorem isMarker_of_markerText {line : Text} (h : MarkerText line) :
  isMarker line
  := by
  obtain ⟨word, hne, hword, rfl⟩ := h
  have hpos : 0 < word.length := List.length_pos_iff.mpr hne
  have hlength : ("__".toList ++ word ++ "__".toList).length = word.length + 4 := by simp
  have hend : ("__".toList ++ word ++ "__".toList).drop (word.length + 4 - 2) = ['_', '_'] := by
    apply List.drop_left'
    simp
  have hchars : ∀ c ∈ "__".toList ++ word ++ "__".toList, isWordChar c := by
    have hunderscores : ∀ c ∈ "__".toList, isWordChar c := List.all_eq_true.mp (by decide +kernel)
    rw [List.forall_mem_append, List.forall_mem_append]
    use ⟨hunderscores, hword⟩, hunderscores
  rw [isMarker, hlength, hend, List.all_eq_true.mpr hchars, decide_eq_true (by omega)]
  rfl

theorem markerText_of_isMarker {line : Text} (h : isMarker line) :
  MarkerText line
  := by
  rw [isMarker, Bool.and_eq_true, Bool.and_eq_true, Bool.and_eq_true, decide_eq_true_eq,
    beq_iff_eq, beq_iff_eq, List.all_eq_true] at h
  obtain ⟨⟨⟨hlength, hstart⟩, hend⟩, hchars⟩ := h
  -- the word is what is left between the first two and the last two characters
  use (line.drop 2).take (line.length - 4)
  refine ⟨?_, ?_, ?_⟩
  · apply List.ne_nil_of_length_pos
    rw [List.length_take, List.length_drop]
    omega
  · intro c hc
    apply hchars c (List.mem_of_mem_drop (List.mem_of_mem_take hc))
  · have hrest : (line.drop 2).drop (line.length - 4) = line.drop (line.length - 2) := by
      rw [List.drop_drop]
      congr 1
      omega
    calc line
        = line.take 2 ++ line.drop 2 := (List.take_append_drop 2 line).symm
      _ = line.take 2 ++ ((line.drop 2).take (line.length - 4)
            ++ (line.drop 2).drop (line.length - 4)) := by
          rw [List.take_append_drop (line.length - 4)]
      _ = "__".toList ++ (line.drop 2).take (line.length - 4) ++ "__".toList := by
          rw [hrest, hstart, hend, ← List.append_assoc]
          rfl

theorem isMarker_iff (line : Text) :
  isMarker line ↔ MarkerText line
  := ⟨markerText_of_isMarker, isMarker_of_markerText⟩

instance : DecidablePred MarkerText :=
  fun line => decidable_of_iff _ (isMarker_iff line)

/-- The lines before the first marker. -/
def upToMarker (ls : List Text) : List Text :=
  ls.takeWhile fun line => !decide (MarkerText line)

theorem not_isMarker_of_mem_upToMarker {ls : List Text} {line : Text}
    (h : line ∈ upToMarker ls) :
  ¬ isMarker line
  := by
  have hnot := List.mem_takeWhile_imp h
  rw [isMarker_iff]
  simpa using hnot

/-- The lines of a text are those before the first marker, and the others begin with it. -/
theorem exists_eq_upToMarker_append (ls : List Text) :
  ∃ rest : List Text, ls = upToMarker ls ++ rest ∧ ∀ line ∈ rest.head?, isMarker line
  := by
  use ls.dropWhile fun line => !decide (MarkerText line)
  constructor
  · rw [upToMarker, List.takeWhile_append_dropWhile]
  · intro line hline
    have hhead := List.head?_dropWhile_not (fun line => !decide (MarkerText line)) ls
    rw [Option.mem_def.mp hline] at hhead
    rw [isMarker_iff]
    simpa using hhead

/-! ### Names -/

theorem mem_map_name_lastOnly (ss : List Section) (name : Text) :
  name ∈ (lastOnly ss).map Section.name ↔ name ∈ ss.map Section.name
  := by
  rw [← not_iff_not, ← body?_eq_none_iff, body?_lastOnly, body?_eq_none_iff, List.map_reverse,
    List.mem_reverse]

/-- Of the sections with one name only one stays. -/
theorem nodup_map_name_lastOnly (ss : List Section) :
  ((lastOnly ss).map Section.name).Nodup
  := by
  induction ss with
  | nil => apply List.nodup_nil
  | cons s rest ih =>
    rw [lastOnly]
    split
    · apply ih
    · rename_i hlater
      rw [List.map_cons, List.nodup_cons, mem_map_name_lastOnly]
      refine ⟨?_, ih⟩
      intro hmem
      obtain ⟨s', hs', hname⟩ := List.mem_map.mp hmem
      apply hlater
      rw [List.any_eq_true]
      use s', hs'
      rw [beq_iff_eq, hname]

/-- The names of the sections are the markers among the lines, and the name of the code. -/
theorem mem_map_name_split (t name : Text) :
  name ∈ (split t).map Section.name
    ↔ name = Cartridge.codeMarker ∨ name ∈ lines t ∧ MarkerText name
  := by
  have hsplit : split t = lastOnly (ofLines Cartridge.codeMarker (lines t)) := rfl
  rw [hsplit, mem_map_name_lastOnly, map_name_ofLines, List.mem_cons, List.mem_filter,
    isMarker_iff]

/-! ### Bodies -/

/-- The first section runs up to the first marker, and no later one takes its place unless its
name comes again. -/
theorem body?_ofLines_first (first : Text) {ls : List Text} (h : first ∉ ls) :
  body? (ofLines first ls).reverse first = some (join ['\n'] (upToMarker ls))
  := by
  obtain ⟨rest, hls, hrest⟩ := exists_eq_upToMarker_append ls
  have hfirst : first ∉ rest := by
    intro hmem
    apply h
    rw [hls]
    apply List.mem_append_right _ hmem
  nth_rewrite 1 [hls]
  apply body?_ofLines_append first (fun _ => not_isMarker_of_mem_upToMarker) hrest hfirst

/-- The section below the last line with a name is the one that stays. -/
theorem body?_ofLines_last {name : Text} (hname : isMarker name) (first : Text)
    (before : List Text) {after : List Text} (h : name ∉ after) :
  body? (ofLines first (before ++ name :: after)).reverse name
    = some (join ['\n'] (upToMarker after))
  := by
  rw [ofLines_append_marker hname, List.reverse_append, body?_append, body?_ofLines_first name h,
    Option.some_or]

theorem exists_last_of_mem {ls : List Text} {name : Text} (h : name ∈ ls) :
  ∃ before after : List Text, ls = before ++ name :: after ∧ name ∉ after
  := by
  obtain ⟨front, rest, heq, hnot⟩ := List.eq_append_cons_of_mem (List.mem_reverse.mpr h)
  use rest.reverse, front.reverse
  constructor
  · rw [List.reverse_eq_iff.mp heq]
    simp
  · rwa [List.mem_reverse]

/-- The sections of a cartridge, read off its lines. -/
structure SplitsInto (t : Text) (sections : List Section) : Prop where
  distinct : (sections.map Section.name).Nodup
  names : ∀ name, name ∈ sections.map Section.name
    ↔ name = Cartridge.codeMarker ∨ name ∈ lines t ∧ MarkerText name
  below : ∀ name ∈ lines t, MarkerText name →
    ∃ before after, lines t = before ++ name :: after ∧ name ∉ after
      ∧ body? sections name = some (join ['\n'] (upToMarker after))
  front : Cartridge.codeMarker ∉ lines t →
    body? sections Cartridge.codeMarker = some (join ['\n'] (upToMarker (lines t)))

/-- Splitting a cartridge gives its sections: those named by the markers among its lines, each
with the lines below the last marker of its name, and the code, which is what comes before all
markers if it has no marker of its own. -/
theorem splitsInto_split (t : Text) :
  SplitsInto t (split t)
  := by
  constructor
  case distinct => apply nodup_map_name_lastOnly
  case names => apply mem_map_name_split
  case below =>
    intro name hmem hname
    obtain ⟨before, after, hlines, hlast⟩ := exists_last_of_mem hmem
    use before, after, hlines, hlast
    rw [body?_split, hlines]
    apply body?_ofLines_last (isMarker_of_markerText hname) _ _ hlast
  case front =>
    intro h
    rw [body?_split]
    apply body?_ofLines_first _ h

end Section

end CartTokens
