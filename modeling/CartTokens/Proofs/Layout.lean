import CartTokens.Proofs.ContentLines

/-!
# Layout

`Relayout s t` says that `s` and `t` differ in layout only: they have the same characters
except that white space with a line break in it may be other white space with a line break in
it, and white space at the end other white space.  Texts that differ in layout only have the
same content (`Relayout.contentLines_eq`), and every text differs in layout only from the
plain one with its content (`relayout_layOut`).
-/

namespace CartTokens

open Text

/-- White space with a line break in it. -/
structure IsGap (w : Text) : Prop where
  blank : isBlankLine w
  break_mem : '\n' ∈ w

/-- The two texts differ in layout only, both coming after the same text. -/
inductive Relayout : Text → Text → Prop where
  | ending {v w : Text} (hv : isBlankLine v) (hw : isBlankLine w) : Relayout v w
  | char (c : Char) {s t : Text} (h : Relayout s t) : Relayout (c :: s) (c :: t)
  | gap {v w s t : Text} (hv : IsGap v) (hw : IsGap w) (h : Relayout s t) :
      Relayout (v ++ s) (w ++ t)

namespace Relayout

theorem symm {s t : Text} (h : Relayout s t) :
  Relayout t s
  := by
  induction h with
  | ending hv hw => exact ending hw hv
  | char c _ ih => exact char c ih
  | gap hv hw _ ih => exact gap hw hv ih

theorem append_left (x : Text) {s t : Text} (h : Relayout s t) :
  Relayout (x ++ s) (x ++ t)
  := by
  induction x with
  | nil => exact h
  | cons c x ih => exact char c ih

/-- A gap cuts the content in two. -/
theorem contentLines_append_gap (x : Text) {w : Text} (hw : IsGap w) (s : Text) :
  contentLines (x ++ (w ++ s)) = contentLines x ++ contentLines s
  := by
  obtain ⟨w₁, w₂, hsplit⟩ := List.append_of_mem hw.break_mem
  have hblank := hw.blank
  rw [hsplit, isBlankLine_append_break] at hblank
  rw [hsplit, List.append_assoc, List.cons_append, ← List.append_assoc, contentLines_append_break,
    contentLines_append_blank x hblank.1, contentLines_blank_append hblank.2]

/-- Texts that differ in layout only have the same content, whatever stands before them. -/
theorem contentLines_append_eq {s t : Text} (h : Relayout s t) (x : Text) :
  contentLines (x ++ s) = contentLines (x ++ t)
  := by
  induction h generalizing x with
  | ending hv hw => rw [contentLines_append_blank x hv, contentLines_append_blank x hw]
  | @char c s t _ ih =>
    rw [List.append_cons x c s, List.append_cons x c t]
    apply ih
  | gap hv hw _ ih =>
    rw [contentLines_append_gap x hv, contentLines_append_gap x hw]
    congr 1
    apply ih []

theorem contentLines_eq {s t : Text} (h : Relayout s t) :
  contentLines s = contentLines t
  := contentLines_append_eq h []

/-- A character that is not white space stands in both texts. -/
theorem cons_inv {c : Char} (hc : ¬ isSpace c) {s t : Text} (h : Relayout (c :: s) t) :
  ∃ t' : Text, t = c :: t' ∧ Relayout s t'
  := by
  generalize hs : c :: s = s' at h
  cases h with
  | ending hv _ =>
    subst hs
    exact absurd ((isBlankLine_iff _).mp hv c List.mem_cons_self) hc
  | char d h =>
    obtain ⟨rfl, rfl⟩ := List.cons.inj hs
    exact ⟨_, rfl, h⟩
  | @gap v _ _ _ hv _ _ =>
    cases v with
    | nil => exact absurd hv.break_mem List.not_mem_nil
    | cons d v =>
      obtain ⟨rfl, -⟩ := List.cons.inj hs
      exact absurd ((isBlankLine_iff _).mp hv.blank c List.mem_cons_self) hc

/-- A text without white space stands in both texts. -/
theorem append_inv {m : Text} (hm : ∀ c ∈ m, ¬ isSpace c) {s t : Text}
    (h : Relayout (m ++ s) t) :
  ∃ t' : Text, t = m ++ t' ∧ Relayout s t'
  := by
  induction m generalizing t with
  | nil => exact ⟨t, rfl, h⟩
  | cons c m ih =>
    obtain ⟨t₁, rfl, h₁⟩ := cons_inv (hm c List.mem_cons_self) h
    obtain ⟨t', rfl, h'⟩ := ih (fun d hd => hm d (List.mem_cons_of_mem c hd)) h₁
    exact ⟨t', rfl, h'⟩

end Relayout

/-! ### The plain layout -/

/-- The lines, each after a line break. -/
def layOut (ls : List Text) : Text :=
  ls.flatMap ('\n' :: ·)

theorem layOut_cons (l : Text) (ls : List Text) :
  layOut (l :: ls) = '\n' :: (l ++ layOut ls)
  := List.flatMap_cons

theorem layOut_splitOn (t : Text) :
  layOut (t.splitOn '\n') = '\n' :: t
  := by
  induction t using line_induction with
  | line l hl =>
    rw [List.splitOn_eq_singleton hl, layOut_cons]
    simp [layOut]
  | cut l t hl ih => rw [List.splitOn_append_cons_self_of_not_mem hl, layOut_cons, ih]

/-- Lines laid out after white space differ in layout only from their content laid out. -/
theorem relayout_append_layOut {v : Text} (hv : isBlankLine v) (ls : List Text) :
  Relayout (v ++ layOut ls) (layOut ((ls.map trim).filter fun line => !line.isEmpty))
  := by
  induction ls generalizing v with
  | nil =>
    rw [layOut, List.flatMap_nil, List.append_nil]
    exact .ending hv rfl
  | cons l ls ih =>
    rw [List.map_cons, List.filter_cons, isEmpty_trim, layOut_cons]
    by_cases hb : isBlankLine l
    · -- a blank line joins the white space before it
      rw [hb, ← List.cons_append, ← List.append_assoc]
      apply ih
      rw [isBlankLine_append_break]
      exact ⟨hv, hb⟩
    · obtain ⟨w₁, w₂, hw₁, hw₂, hl⟩ := exists_eq_append_trim l
      have hgap : IsGap (v ++ '\n' :: w₁) := by
        constructor
        · rw [isBlankLine_append_break]
          exact ⟨hv, hw₁⟩
        · simp
      have hbreak : IsGap ['\n'] := ⟨rfl, List.mem_singleton_self _⟩
      have hsplit : v ++ '\n' :: (l ++ layOut ls)
          = (v ++ '\n' :: w₁) ++ (trim l ++ (w₂ ++ layOut ls)) := by
        nth_rewrite 1 [hl]
        simp
      rw [Bool.eq_false_iff.mpr hb, hsplit, Bool.not_false, if_pos rfl, layOut_cons]
      exact .gap hgap hbreak ((ih hw₂).append_left _)

/-- Every text, after a line break, differs in layout only from its content laid out. -/
theorem relayout_layOut (t : Text) :
  Relayout ('\n' :: t) (layOut (contentLines t))
  := by
  have hnil : isBlankLine [] := rfl
  rw [← layOut_splitOn, contentLines, parts_eq_splitOn]
  exact relayout_append_layOut hnil _

end CartTokens
