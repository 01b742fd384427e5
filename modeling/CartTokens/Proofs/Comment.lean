import CartTokens.Comment
import CartTokens.Proofs.Layout

/-!
# Block comments and layout

The marks that open and close block comments hold no white space, so they stand in two texts
that differ in layout only at corresponding places.  Hence taking out block comments, or
putting another text in their place, keeps texts that differ in layout only so
(`Relayout.replaceComments_rel`), and the content that is left depends on the content alone
(`contentLines_replaceComments_congr`).
-/

namespace CartTokens

open Text

/-! ### Marks in a text -/

namespace Text

/-- A mark in front of a text does not reach over a character that it does not hold. -/
theorem isPrefix_of_append_cons {mark : Text} {c : Char} (hc : c ∉ mark) {s t : Text}
    (h : mark <+: s ++ c :: t) :
  mark <+: s
  := by
  obtain hs | ⟨u, rfl⟩ := List.prefix_or_prefix_of_prefix h (List.prefix_append s (c :: t))
  · exact hs
  · rw [List.prefix_append_right_inj] at h
    cases u with
    | nil => simp
    | cons d u =>
      obtain ⟨rfl, -⟩ := List.cons_prefix_cons.mp h
      exact absurd (by simp) hc

/-- A mark in a text does not reach over a character that it does not hold. -/
theorem isInfix_of_append_cons {mark : Text} {c : Char} (hc : c ∉ mark) {s t : Text}
    (h : mark <:+: s ++ c :: t) :
  mark <:+: s ∨ mark <:+: t
  := by
  induction s with
  | nil =>
    obtain hstart | hrest := List.infix_cons_iff.mp h
    · exact .inl (isPrefix_of_append_cons (s := []) hc hstart).isInfix
    · exact .inr hrest
  | cons d s ih =>
    obtain hstart | hrest := List.infix_cons_iff.mp h
    · exact .inl (isPrefix_of_append_cons (s := d :: s) hc hstart).isInfix
    · apply (ih hrest).imp_left
      intro hs
      apply hs.trans (List.suffix_cons d s).isInfix

end Text

/-! ### Openers and closers -/

/-- An opener in front of a text is found, with its level. -/
theorem opener?_commentOpener_append (level : Nat) (body : Text) :
  opener? (commentOpener level ++ body) = some (level, body)
  := by
  have hafter : after? "--[".toList (commentOpener level ++ body)
      = some (List.replicate level '=' ++ '[' :: body) := by
    rw [after?_eq_some_iff, commentOpener]
    simp
  have hdrop : (List.replicate level '=' ++ '[' :: body).dropWhile (· == '=') = '[' :: body := by
    rw [List.dropWhile_append_of_pos (by simp)]
    rfl
  have htake : (List.replicate level '=' ++ '[' :: body).takeWhile (· == '=')
      = List.replicate level '=' := by
    rw [List.takeWhile_append_of_pos (by simp)]
    simp
  rw [opener?, hafter]
  simp only [hdrop, htake, List.length_replicate]

/-- Where an opener is found the text is the opener and what follows it. -/
theorem opener?_eq_some_iff (t : Text) (level : Nat) (body : Text) :
  opener? t = some (level, body) ↔ t = commentOpener level ++ body
  := by
  constructor
  · intro h
    unfold opener? at h
    split at h
    · contradiction
    · rename_i rest hrest
      split at h
      · rename_i b hb
        obtain ⟨rfl, rfl⟩ := Prod.mk.inj (Option.some.inj h)
        have heq : rest.takeWhile (· == '=')
            = List.replicate (rest.takeWhile (· == '=')).length '=' := by
          apply List.eq_replicate_of_mem
          intro c hc
          have hp := List.mem_takeWhile_imp hc
          exact eq_of_beq hp
        have hsplit : rest = rest.takeWhile (· == '=') ++ '[' :: b := by
          rw [← hb, List.takeWhile_append_dropWhile]
        rw [(after?_eq_some_iff _ _ _).mp hrest, commentOpener, ← heq]
        nth_rewrite 1 [hsplit]
        simp
      · contradiction
  · rintro rfl
    apply opener?_commentOpener_append

/-- A mark with equals signs in the middle holds no white space if its ends hold none. -/
theorem not_isSpace_of_mem_mark {first last : Text}
    (h : (first ++ ['='] ++ last).all fun c => !isSpace c) (level : Nat) :
  ∀ c ∈ first ++ List.replicate level '=' ++ last, ¬ isSpace c
  := by
  intro c hc
  apply not_isSpace_of_all h
  rw [List.mem_append, List.mem_append, List.mem_replicate] at hc
  rw [List.mem_append, List.mem_append, List.mem_singleton]
  rcases hc with (hfirst | ⟨-, hsign⟩) | hlast
  · exact .inl (.inl hfirst)
  · exact .inl (.inr hsign)
  · exact .inr hlast

theorem not_isSpace_of_mem_commentOpener (level : Nat) :
  ∀ c ∈ commentOpener level, ¬ isSpace c
  := not_isSpace_of_mem_mark (by decide) level

theorem not_isSpace_of_mem_commentCloser (level : Nat) :
  ∀ c ∈ commentCloser level, ¬ isSpace c
  := not_isSpace_of_mem_mark (by decide) level

theorem opener?_of_isSpace {c : Char} (hc : isSpace c) (cs : Text) :
  opener? (c :: cs) = none
  := by
  rw [Option.eq_none_iff_forall_not_mem]
  rintro ⟨level, body⟩ h
  have hopen := (opener?_eq_some_iff _ level body).mp h
  have hmem : c ∈ commentOpener level := by
    obtain ⟨rfl, -⟩ := List.cons.inj hopen
    exact List.mem_cons_self
  exact not_isSpace_of_mem_commentOpener level c hmem hc

theorem findOpener_of_opener? {c : Char} {cs : Text} {found : Nat × Text}
    (h : opener? (c :: cs) = some found) :
  findOpener (c :: cs) = some ([], found)
  := by
  have htext : c :: cs
      = '-' :: '-' :: '[' :: (List.replicate found.1 '=' ++ '[' :: found.2) := by
    rw [(opener?_eq_some_iff _ found.1 found.2).mp h, commentOpener]
    simp
  rw [htext] at h ⊢
  rw [findOpener, h]

/-- A character that begins no opener is passed over. -/
theorem findOpener_of_opener?_eq_none {c : Char} {cs : Text} (h : opener? (c :: cs) = none) :
  findOpener (c :: cs) = (findOpener cs).map fun found => (c :: found.1, found.2)
  := by
  by_cases hmark : ∃ rest, c = '-' ∧ cs = '-' :: '[' :: rest
  · obtain ⟨rest, rfl, rfl⟩ := hmark
    -- neither of the two characters behind the dash begins an opener
    have hbehind : findOpener ('-' :: '[' :: rest)
        = (findOpener rest).map fun found => ('-' :: '[' :: found.1, found.2) := by
      rw [findOpener, findOpener, Option.map_map]
      · rfl
      · simp
      · simp
    rw [findOpener, h, hbehind, Option.map_map]
    rfl
  · rw [findOpener]
    intro rest hc hcs
    apply hmark ⟨rest, hc, hcs⟩

theorem opener?_eq_none_iff (t : Text) :
  opener? t = none ↔ ∀ level, ¬ commentOpener level <+: t
  := by
  rw [Option.eq_none_iff_forall_ne_some, Prod.forall]
  apply forall_congr'
  intro level
  rw [← not_exists]
  apply not_congr
  apply exists_congr
  intro body
  rw [opener?_eq_some_iff, eq_comm]

/-- Without `--[` no comment opens. -/
theorem not_commentOpener_isPrefix {t : Text} (h : ¬ "--[".toList <+: t) (level : Nat) :
  ¬ commentOpener level <+: t
  := by
  intro hopen
  apply h
  rw [commentOpener, List.append_assoc] at hopen
  apply (List.prefix_append _ _).trans hopen

theorem findOpener_eq_none {t : Text} (h : ¬ "--[".toList <:+: t) :
  findOpener t = none
  := by
  induction t with
  | nil => rfl
  | cons c t ih =>
    rw [List.infix_cons_iff, not_or] at h
    have hhere : opener? (c :: t) = none :=
      (opener?_eq_none_iff _).mpr (not_commentOpener_isPrefix h.1)
    rw [findOpener_of_opener?_eq_none hhere, ih h.2]
    rfl

/-- White space before a text holds no opener. -/
theorem findOpener_blank_append {w : Text} (hw : isBlankLine w) (t : Text) :
  findOpener (w ++ t) = (findOpener t).map fun found => (w ++ found.1, found.2)
  := by
  induction w with
  | nil => simp
  | cons c w ih =>
    rw [isBlankLine_iff, List.forall_mem_cons, ← isBlankLine_iff] at hw
    rw [List.cons_append, findOpener_of_opener?_eq_none (opener?_of_isSpace hw.1 _), ih hw.2,
      Option.map_map]
    rfl

/-- White space before a text holds no part of a mark without white space. -/
theorem afterFirst?_blank_append {mark : Text} (hm : ∀ c ∈ mark, ¬ isSpace c) (hne : mark ≠ [])
    {w : Text} (hw : isBlankLine w) (t : Text) :
  afterFirst? mark (w ++ t) = afterFirst? mark t
  := by
  induction w with
  | nil => rfl
  | cons c w ih =>
    rw [isBlankLine_iff, List.forall_mem_cons, ← isBlankLine_iff] at hw
    have hnone : after? mark (c :: (w ++ t)) = none := by
      cases mark with
      | nil => exact absurd rfl hne
      | cons d mark =>
        rw [after?, if_neg]
        rintro rfl
        exact hm d List.mem_cons_self hw.1
    rw [List.cons_append, afterFirst?, hnone]
    exact ih hw.2

/-! ### Two texts that differ in layout only -/

theorem optionRel_map {α β α' β' : Type} {r : α → β → Prop} {r' : α' → β' → Prop}
    {f : α → α'} {g : β → β'} (hfg : ∀ a b, r a b → r' (f a) (g b)) {o : Option α}
    {o' : Option β} (h : Option.Rel r o o') :
  Option.Rel r' (o.map f) (o'.map g)
  := by
  cases h with
  | none => exact .none
  | some hab => exact .some (hfg _ _ hab)

theorem exists_of_optionRel_some {α β : Type} {r : α → β → Prop} {a : α} {o : Option β}
    (h : Option.Rel r (some a) o) :
  ∃ b, o = some b ∧ r a b
  := by
  cases h with
  | some hab => exact ⟨_, rfl, hab⟩

theorem eq_none_of_optionRel_none {α β : Type} {r : α → β → Prop} {o : Option β}
    (h : Option.Rel r none o) :
  o = none
  := by
  cases h
  rfl

/-- Put before texts that differ in layout only, the two texts give such texts again. -/
def KeepsLayout (b b' : Text) : Prop :=
  ∀ ⦃s t : Text⦄, Relayout s t → Relayout (b ++ s) (b' ++ t)

/-- Openers found at corresponding places of two texts that differ in layout only: what stands
before them, their level, and what stands after them. -/
structure SameOpener (a b : Text × Nat × Text) : Prop where
  before : KeepsLayout a.1 b.1
  level : a.2.1 = b.2.1
  body : Relayout a.2.2 b.2.2

namespace Relayout

theorem opener?_eq_some {s t : Text} (h : Relayout s t) {level : Nat} {body : Text}
    (ho : opener? s = some (level, body)) :
  ∃ body' : Text, opener? t = some (level, body') ∧ Relayout body body'
  := by
  rw [opener?_eq_some_iff] at ho
  subst ho
  obtain ⟨body', rfl, hbody⟩ := h.append_inv (not_isSpace_of_mem_commentOpener level)
  exact ⟨body', opener?_commentOpener_append level body', hbody⟩

theorem opener?_eq_none {s t : Text} (h : Relayout s t) (ho : opener? s = none) :
  opener? t = none
  := by
  rw [Option.eq_none_iff_forall_not_mem]
  rintro ⟨level, body⟩ ht
  obtain ⟨body', hs, -⟩ := h.symm.opener?_eq_some ht
  rw [ho] at hs
  contradiction

/-- The first openers of texts that differ in layout only correspond. -/
theorem findOpener_rel {s t : Text} (h : Relayout s t) :
  Option.Rel SameOpener (findOpener s) (findOpener t)
  := by
  induction h with
  | @ending v w hv hw =>
    rw [← List.append_nil v, ← List.append_nil w, findOpener_blank_append hv,
      findOpener_blank_append hw]
    exact .none
  | @char c s t h ih =>
    cases ho : opener? (c :: s) with
    | some found =>
      obtain ⟨level, body⟩ := found
      obtain ⟨body', ho', hbody⟩ := (h.char c).opener?_eq_some ho
      rw [findOpener_of_opener? ho, findOpener_of_opener? ho']
      exact .some ⟨fun _ _ hst => hst, rfl, hbody⟩
    | none =>
      rw [findOpener_of_opener?_eq_none ho,
        findOpener_of_opener?_eq_none ((h.char c).opener?_eq_none ho)]
      apply optionRel_map _ ih
      intro _ _ hf
      exact ⟨fun _ _ hst => (hf.before hst).char c, hf.level, hf.body⟩
  | @gap v w s t hv hw h ih =>
    rw [findOpener_blank_append hv.blank, findOpener_blank_append hw.blank]
    apply optionRel_map _ ih
    intro _ _ hf
    refine ⟨fun x y hxy => ?_, hf.level, hf.body⟩
    simp only [List.append_assoc]
    exact .gap hv hw (hf.before hxy)

theorem after?_rel {m : Text} (hm : ∀ c ∈ m, ¬ isSpace c) {s t : Text} (h : Relayout s t) :
  Option.Rel Relayout (after? m s) (after? m t)
  := by
  cases hs : after? m s with
  | some rest =>
    rw [after?_eq_some_iff] at hs
    subst hs
    obtain ⟨rest', rfl, hrest⟩ := h.append_inv hm
    rw [(after?_eq_some_iff m _ rest').mpr rfl]
    exact .some hrest
  | none =>
    cases ht : after? m t with
    | none => exact .none
    | some rest =>
      rw [after?_eq_some_iff] at ht
      subst ht
      obtain ⟨rest', rfl, -⟩ := h.symm.append_inv hm
      rw [(after?_eq_some_iff m _ rest').mpr rfl] at hs
      contradiction

/-- What follows the first occurrence of a mark without white space differs in layout only. -/
theorem afterFirst?_rel {mark : Text} (hm : ∀ c ∈ mark, ¬ isSpace c) (hne : mark ≠ [])
    {s t : Text} (h : Relayout s t) :
  Option.Rel Relayout (afterFirst? mark s) (afterFirst? mark t)
  := by
  induction h with
  | @ending v w hv hw =>
    rw [← List.append_nil v, ← List.append_nil w, afterFirst?_blank_append hm hne hv,
      afterFirst?_blank_append hm hne hw]
    exact .none
  | @char c s t h ih =>
    rw [afterFirst?, afterFirst?]
    have hafter := (h.char c).after?_rel hm
    revert hafter
    cases after? mark (c :: s) <;> cases after? mark (c :: t) <;> intro hafter
    · exact ih
    · cases hafter
    · cases hafter
    · exact hafter
  | @gap v w s t hv hw h ih =>
    rw [afterFirst?_blank_append hm hne hv.blank, afterFirst?_blank_append hm hne hw.blank]
    exact ih

/-- A comment of the first text has a comment of the same level in the second one, which is
closed or left open as it is. -/
theorem exists_findOpener_eq_some {s t : Text} (h : Relayout s t) {before body : Text}
    {level : Nat} (hs : findOpener s = some (before, level, body)) :
  ∃ before' body' : Text, findOpener t = some (before', level, body')
    ∧ KeepsLayout before before' ∧ Relayout body body'
    ∧ Option.Rel Relayout (afterFirst? (commentCloser level) body)
        (afterFirst? (commentCloser level) body')
  := by
  have hfound := h.findOpener_rel
  rw [hs] at hfound
  obtain ⟨⟨before', level', body'⟩, ht, ⟨hbefore, hlevel, hbody⟩⟩ :=
    exists_of_optionRel_some hfound
  obtain rfl : level = level' := hlevel
  have hclose : commentCloser level ≠ [] := List.cons_ne_nil _ _
  use before', body', ht, hbefore, hbody
  exact hbody.afterFirst?_rel (not_isSpace_of_mem_commentCloser level) hclose

end Relayout

/-! ### Replacing comments -/

theorem replaceComments_of_findOpener_eq_none (fill : Text) {t : Text}
    (h : findOpener t = none) :
  replaceComments fill t = t
  := by
  rw [replaceComments]
  split
  · rfl
  · rename_i hf
    rw [h] at hf
    contradiction

theorem replaceComments_of_closed (fill : Text) {t before body rest : Text} {level : Nat}
    (h : findOpener t = some (before, level, body))
    (hc : afterFirst? (commentCloser level) body = some rest) :
  replaceComments fill t = before ++ fill ++ replaceComments fill rest
  := by
  rw [replaceComments]
  split
  · rename_i hf
    rw [h] at hf
    contradiction
  · rename_i hf
    rw [h] at hf
    cases hf
    split
    · rename_i hc'
      rw [hc] at hc'
      cases hc'
      rfl
    · rename_i hc'
      rw [hc] at hc'
      contradiction

theorem replaceComments_of_open (fill : Text) {t before body : Text} {level : Nat}
    (h : findOpener t = some (before, level, body))
    (hc : afterFirst? (commentCloser level) body = none) :
  replaceComments fill t = before ++ commentOpener level ++ replaceComments fill body
  := by
  rw [replaceComments]
  split
  · rename_i hf
    rw [h] at hf
    contradiction
  · rename_i hf
    rw [h] at hf
    cases hf
    split
    · rename_i hc'
      rw [hc] at hc'
      contradiction
    · rfl

/-- Replacing the comments of texts that differ in layout only gives such texts. -/
theorem Relayout.replaceComments_rel (fill : Text) {s t : Text} (h : Relayout s t) :
  Relayout (replaceComments fill s) (replaceComments fill t)
  := by
  fun_induction replaceComments fill s generalizing t with
  | case1 s hs =>
    have hfound := h.findOpener_rel
    rw [hs] at hfound
    rw [replaceComments_of_findOpener_eq_none fill (eq_none_of_optionRel_none hfound)]
    exact h
  | case2 s before level body hs rest hc ih =>
    obtain ⟨before', body', ht, hbefore, -, hclosed⟩ := h.exists_findOpener_eq_some hs
    rw [hc] at hclosed
    obtain ⟨rest', hc', hrest⟩ := exists_of_optionRel_some hclosed
    rw [replaceComments_of_closed fill ht hc', List.append_assoc, List.append_assoc]
    apply hbefore
    exact (ih hrest).append_left fill
  | case3 s before level body hs hc ih =>
    obtain ⟨before', body', ht, hbefore, hbody, hopen⟩ := h.exists_findOpener_eq_some hs
    rw [hc] at hopen
    rw [replaceComments_of_open fill ht (eq_none_of_optionRel_none hopen), List.append_assoc,
      List.append_assoc]
    apply hbefore
    exact (ih hbody).append_left (commentOpener level)

theorem replaceComments_blank_append (fill : Text) {w : Text} (hw : isBlankLine w) (t : Text) :
  replaceComments fill (w ++ t) = w ++ replaceComments fill t
  := by
  have hfind := findOpener_blank_append hw t
  cases h : findOpener t with
  | none =>
    rw [h] at hfind
    rw [replaceComments_of_findOpener_eq_none fill h,
      replaceComments_of_findOpener_eq_none fill hfind]
  | some found =>
    obtain ⟨before, level, body⟩ := found
    rw [h] at hfind
    cases hc : afterFirst? (commentCloser level) body with
    | some rest =>
      rw [replaceComments_of_closed fill h hc, replaceComments_of_closed fill hfind hc]
      simp
    | none =>
      rw [replaceComments_of_open fill h hc, replaceComments_of_open fill hfind hc]
      simp

/-- The content left by replacing comments depends on the content alone. -/
theorem contentLines_replaceComments_congr (fill : Text) {s t : Text}
    (h : contentLines s = contentLines t) :
  contentLines (replaceComments fill s) = contentLines (replaceComments fill t)
  := by
  have canonical : ∀ u : Text, contentLines (replaceComments fill u)
      = contentLines (replaceComments fill (layOut (contentLines u))) := by
    intro u
    rw [← ((relayout_layOut u).replaceComments_rel fill).contentLines_eq, ← List.singleton_append,
      replaceComments_blank_append fill isBlankLine_break,
      contentLines_blank_append isBlankLine_break]
  rw [canonical s, canonical t, h]

end CartTokens
