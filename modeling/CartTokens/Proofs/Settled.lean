import CartTokens.Proofs.Kind

/-!
# Merging is done once

Merging cuts the raw tokens into groups of one, two or three neighbours, and nothing else.  A list
of tokens is settled if none of them comes together with those after it (`Settled`); such a list is
merged already (`Settled.merge_eq`).  Merged tokens are settled (`settled_merge`): a token put
together from several ones does not come together with anything after it, and a token left alone
sees next to it a token left alone too, or one that begins like what it saw before.
-/

namespace CartTokens

/-! ### Groups one after the other -/

/-- The first group, and the groups after it. -/
theorem groups_eq_cons {prev : Option Text} {ts : List Text} {g : List Text}
    {gs : List (List Text)} (h : groups prev ts = g :: gs) :
  ∃ a rest, ts = a :: rest ∧ g = a :: rest.take (fused prev a rest)
    ∧ gs = groups (some g.flatten) (rest.drop (fused prev a rest))
  := by
  cases ts with
  | nil =>
    rw [groups] at h
    contradiction
  | cons a rest =>
    rw [groups, List.cons.injEq] at h
    obtain ⟨rfl, rfl⟩ := h
    exact ⟨a, rest, rfl, rfl, rfl⟩

/-- The groups from a place on are the groups of the tokens from that place on, after the merged
token before it. -/
theorem groups_eq_append {ts : List Text} {gs gs' : List (List Text)}
    (h : groups none ts = gs ++ gs') :
  ∃ ts', ts = gs.flatten ++ ts' ∧ gs' = groups (gs.map List.flatten).getLast? ts'
  := by
  induction gs using List.reverseRecOn generalizing gs' with
  | nil => exact ⟨ts, rfl, h.symm⟩
  | append_singleton gs g ih =>
    rw [List.append_assoc] at h
    obtain ⟨ts', rfl, hg⟩ := ih h
    obtain ⟨a, rest, rfl, rfl, hgs'⟩ := groups_eq_cons hg.symm
    use rest.drop (fused (gs.map List.flatten).getLast? a rest)
    constructor
    · simp
    · rw [List.map_append, List.map_singleton, List.getLast?_concat]
      exact hgs'

/-- A merged token is made of a token and those that come together with it, and the merged tokens
after it are those of the tokens left over. -/
theorem merge_eq_append {ts before after : List Text} {m : Text}
    (h : merge ts = before ++ m :: after) :
  ∃ earlier a rest, ts = earlier ++ a :: rest
    ∧ m = (a :: rest.take (fused before.getLast? a rest)).flatten
    ∧ after = (groups (some m) (rest.drop (fused before.getLast? a rest))).map List.flatten
  := by
  obtain ⟨gs, gs', hgroups, rfl, hafter⟩ := List.map_eq_append_iff.mp h
  obtain ⟨ts', rfl, rfl⟩ := groups_eq_append hgroups
  obtain ⟨g, gs', hgs', rfl, rfl⟩ := List.map_eq_cons_iff.mp hafter
  obtain ⟨a, rest, rfl, rfl, rfl⟩ := groups_eq_cons hgs'
  exact ⟨gs.flatten, a, rest, rfl, rfl, rfl⟩

theorem Fusion.le_two {prev : Option Text} {a : Text} {ts : List Text} {n : Nat}
    (h : Fusion prev a ts n) :
  n ≤ 2
  := by
  cases h <;> decide

/-- A group has one, two or three tokens. -/
theorem length_of_mem_groups {prev : Option Text} {ts g : List Text} (h : g ∈ groups prev ts) :
  g.length ∈ [1, 2, 3]
  := by
  fun_induction groups prev ts with
  | case1 => exact absurd h List.not_mem_nil
  | case2 prev a rest ih =>
    obtain rfl | h := List.mem_cons.mp h
    · have hfusion := fusion_fused prev a rest
      have hlength := List.length_take_of_le hfusion.le_length
      have htwo := hfusion.le_two
      rw [List.length_cons, hlength]
      simp only [List.mem_cons, List.not_mem_nil, or_false]
      omega
    · apply ih h

/-! ### Tokens that come together with nothing -/

/-- A token stays alone exactly if there is no reason for it to come together with others. -/
theorem fused_eq_zero_iff (prev : Option Text) (a : Text) (ts : List Text) :
  fused prev a ts = 0 ↔ ∀ n, Fusion prev a ts n → n = 0
  := by
  constructor
  · intro h n hn
    cases hn with
    | alone _ => rfl
    | compound hcompound rest =>
      rw [fused, if_pos hcompound] at h
      split_ifs at h
    | @signed b ha hb hsign hprev rest =>
      have hsigned : a = ['-'] && isNumber b && b.head? != some '-'
          && prev.any signContexts.contains := by
        simp [ha, hb, hsign, hprev]
      rw [fused, if_pos hsigned] at h
      split_ifs at h
    | @fraction b ha hb rest =>
      have hfraction : ['.'] = ['.'] && isPlainNumber a && (b :: rest).head?.any isPlainNumber := by
        simp [ha, hb]
      rw [fused, if_pos hfraction] at h
      contradiction
  · intro h
    apply h _ (fusion_fused prev a ts)

/-- A token of several characters that is not made of digits comes together with nothing. -/
theorem Fusion.eq_zero {prev : Option Text} {a : Text} {ts : List Text} {n : Nat}
    (h : Fusion prev a ts n) (hlength : 1 < a.length) (hplain : ¬ isPlainNumber a)
    (hne : ∀ t ∈ ts, t ≠ []) :
  n = 0
  := by
  have hsingle : ∀ c, a ≠ [c] := by
    rintro c rfl
    exact absurd hlength (lt_irrefl 1)
  cases h with
  | alone _ => rfl
  | compound hcompound rest =>
    have ha : a ≠ [] := List.ne_nil_of_length_pos (Nat.zero_lt_of_lt hlength)
    obtain ⟨c, -, heq, -⟩ | ⟨heq, -⟩ := eq_of_isCompound ha (hne _ List.mem_cons_self) hcompound
    · exact absurd heq (hsingle c)
    · exact absurd heq (hsingle '.')
  | signed ha _ _ _ rest => exact absurd ha (hsingle '-')
  | fraction ha _ rest => exact absurd ha hplain

theorem not_isPlainNumber_of_mem {t : Text} {c : Char} (hc : c ∈ t) (hdigit : ¬ isDigit c) :
  ¬ isPlainNumber t
  := by
  rw [isPlainNumber, Bool.and_eq_true, List.all_eq_true]
  exact fun h => hdigit (h.2 c hc)

/-- A group is a token alone, or makes up a token of several characters that is not made of
digits. -/
theorem Fusion.alone_or {prev : Option Text} {a : Text} {ts : List Text} {n : Nat}
    (h : Fusion prev a ts n) :
  n = 0 ∨ 1 < (a :: ts.take n).flatten.length ∧ ¬ isPlainNumber (a :: ts.take n).flatten
  := by
  have hcompounds : ∀ w ∈ compounds, 1 < w.length ∧ ¬ isPlainNumber w := by decide
  cases h with
  | alone _ => exact .inl rfl
  | compound hcompound rest =>
    right
    rw [isCompound, List.contains_iff_mem] at hcompound
    simpa using hcompounds _ hcompound
  | @signed b ha hb _ _ rest =>
    right
    subst ha
    constructor
    · have hne : b ≠ [] := by
        rintro rfl
        contradiction
      simpa [List.length_pos_iff] using hne
    · apply not_isPlainNumber_of_mem (c := '-') _ (by decide)
      simp
  | fraction ha _ rest =>
    right
    constructor
    · have hne : a ≠ [] := by
        rintro rfl
        contradiction
      have hlength := List.length_pos_iff.mpr hne
      simp only [List.take_succ_cons, List.take_zero, List.flatten_cons, List.length_append,
        List.length_singleton]
      omega
    · apply not_isPlainNumber_of_mem (c := '.') _ (by decide)
      simp

/-! ### Settled tokens -/

/-- No token comes together with those after it. -/
def Settled (ms : List Text) : Prop :=
  ∀ before m after n, ms = before ++ m :: after → Fusion before.getLast? m after n → n = 0

theorem Settled.groups_eq {ms : List Text} (h : Settled ms) (before after : List Text)
    (hms : ms = before ++ after) :
  groups before.getLast? after = after.map fun m => [m]
  := by
  induction after generalizing before with
  | nil => rw [groups, List.map_nil]
  | cons m after ih =>
    have hzero : fused before.getLast? m after = 0 :=
      (fused_eq_zero_iff _ _ _).mpr fun n => h before m after n hms
    have hrest := ih (before ++ [m]) (by rw [hms, List.append_cons])
    rw [List.getLast?_concat] at hrest
    rw [groups, hzero, List.take_zero, List.drop_zero, List.flatten_singleton, hrest,
      List.map_cons]

/-- Settled tokens stay as they are when they are merged. -/
theorem Settled.merge_eq {ms : List Text} (h : Settled ms) :
  merge ms = ms
  := by
  have hgroups : groups none ms = ms.map fun m => [m] := h.groups_eq [] ms rfl
  rw [merge, hgroups, List.map_map]
  apply List.map_id''
  exact fun m => List.flatten_singleton

/-! ### Merged tokens are settled -/

/-- A merged token of one character, or one made of digits, is a token left alone. -/
theorem eq_cons_of_alone {prev : Option Text} {ts ms : List Text} {m : Text}
    (h : (groups prev ts).map List.flatten = m :: ms) (hm : m.length ≤ 1 ∨ isPlainNumber m) :
  ∃ rest, ts = m :: rest ∧ ms = (groups (some m) rest).map List.flatten
  := by
  obtain ⟨g, gs, hgroups, rfl, rfl⟩ := List.map_eq_cons_iff.mp h
  obtain ⟨a, rest, rfl, rfl, rfl⟩ := groups_eq_cons hgroups
  obtain hzero | ⟨hlength, hplain⟩ := (fusion_fused prev a rest).alone_or
  · rw [hzero, List.take_zero, List.drop_zero, List.flatten_singleton]
    exact ⟨rest, rfl, rfl⟩
  · obtain hm | hm := hm
    · exact absurd hlength (Nat.not_lt.mpr hm)
    · exact absurd hm hplain

theorem isNumber_of_isPlainNumber {t : Text} (h : isPlainNumber t) :
  isNumber t ∧ t.head? ≠ some '-'
  := by
  cases t with
  | nil => contradiction
  | cons d t =>
    rw [isPlainNumber, Bool.and_eq_true, List.all_cons, Bool.and_eq_true, List.all_eq_true] at h
    have hdigits : ∀ c ∈ t, Lexeme.isNumberChar isDigit c := by
      intro c hc
      rw [Lexeme.isNumberChar, h.2.2 c hc, Bool.or_true]
    have hunsigned := isUnsignedNumber_of_decimal h.2.1 hdigits
    obtain _ | ⟨hnumber, hsign, -⟩ := sound_of_isUnsignedNumber h.2.1 hunsigned
    exact ⟨hnumber, hsign⟩

theorem not_isNumber_of_isCompound {a b : Text} (h : isCompound a b) :
  ¬ isNumber (a ++ b)
  := by
  have hcompounds : ∀ w ∈ compounds, ¬ isNumber w := by decide
  rw [isCompound, List.contains_iff_mem] at h
  apply hcompounds _ h

/-- A merged number without a sign begins with a number without a sign. -/
theorem eq_cons_of_isNumber {prev : Option Text} {ts ms : List Text} {m : Text}
    (h : (groups prev ts).map List.flatten = m :: ms) (hm : isNumber m)
    (hsign : m.head? ≠ some '-') :
  ∃ b rest, ts = b :: rest ∧ isNumber b ∧ b.head? ≠ some '-'
  := by
  obtain ⟨g, gs, hgroups, rfl, rfl⟩ := List.map_eq_cons_iff.mp h
  obtain ⟨b, rest, rfl, rfl, -⟩ := groups_eq_cons hgroups
  have hfusion := fusion_fused prev b rest
  generalize fused prev b rest = n at hfusion hm hsign
  use b, rest, rfl
  cases hfusion with
  | alone _ =>
    rw [List.take_zero, List.flatten_singleton] at hm hsign
    exact ⟨hm, hsign⟩
  | compound hcompound rest =>
    exact absurd (by simpa using hm) (not_isNumber_of_isCompound hcompound)
  | signed hminus _ _ _ rest =>
    subst hminus
    exact absurd rfl hsign
  | fraction hplain _ rest => exact isNumber_of_isPlainNumber hplain

/-- A token left alone does not come together with the merged tokens after it. -/
theorem Fusion.eq_zero_of_alone {prev : Option Text} {a : Text} {ts : List Text} (ha : a ≠ [])
    (hzero : fused prev a ts = 0) {n : Nat}
    (h : Fusion prev a ((groups (some a) ts).map List.flatten) n) :
  n = 0
  := by
  rw [fused_eq_zero_iff] at hzero
  generalize hms : (groups (some a) ts).map List.flatten = ms at h
  cases h with
  | alone _ => rfl
  | @compound m hcompound ms =>
    have hlength : ∀ w ∈ compounds, w.length = 2 := by decide
    have hm : m.length ≤ 1 := by
      have hpos := List.length_pos_iff.mpr ha
      rw [isCompound, List.contains_iff_mem] at hcompound
      have htwo := hlength _ hcompound
      rw [List.length_append] at htwo
      omega
    obtain ⟨rest, rfl, -⟩ := eq_cons_of_alone hms (.inl hm)
    apply hzero 1 (.compound hcompound rest)
  | @signed m hminus hm hsign hprev ms =>
    obtain ⟨b, rest, rfl, hb, hbsign⟩ := eq_cons_of_isNumber hms hm hsign
    apply hzero 1 (.signed hminus hb hbsign hprev rest)
  | @fraction m hplain hm ms =>
    obtain ⟨rest, rfl, hrest⟩ := eq_cons_of_alone hms (.inl le_rfl)
    obtain ⟨rest, rfl, -⟩ := eq_cons_of_alone hrest.symm (.inr hm)
    apply hzero 2 (.fraction hplain hm rest)

theorem ne_nil_of_mem_groups {prev : Option Text} {ts : List Text} (hne : ∀ t ∈ ts, t ≠ [])
    {m : Text} (h : m ∈ (groups prev ts).map List.flatten) :
  m ≠ []
  := by
  obtain ⟨g, hg, rfl⟩ := List.mem_map.mp h
  obtain ⟨a, g, rfl⟩ : ∃ a g', g = a :: g' := by
    apply List.exists_cons_of_ne_nil
    rintro rfl
    exact absurd (length_of_mem_groups hg) (by decide)
  have ha : a ∈ ts := by
    rw [← flatten_groups prev ts]
    exact List.mem_flatten.mpr ⟨_, hg, List.mem_cons_self⟩
  rw [List.flatten_cons]
  apply List.append_ne_nil_of_left_ne_nil (hne a ha)

/-- Merged tokens do not come together any further. -/
theorem settled_merge {ts : List Text} (hne : ∀ t ∈ ts, t ≠ []) :
  Settled (merge ts)
  := by
  intro before m after n hmerge hfusion
  obtain ⟨earlier, a, rest, rfl, rfl, rfl⟩ := merge_eq_append hmerge
  rw [List.forall_mem_append, List.forall_mem_cons] at hne
  generalize hfused : fused before.getLast? a rest = k at hfusion
  have hkept := fusion_fused before.getLast? a rest
  rw [hfused] at hkept
  obtain rfl | ⟨hlength, hplain⟩ := hkept.alone_or
  · rw [List.take_zero, List.flatten_singleton, List.drop_zero] at hfusion
    apply hfusion.eq_zero_of_alone hne.2.1 hfused
  · apply hfusion.eq_zero hlength hplain
    intro t ht
    apply ne_nil_of_mem_groups _ ht
    exact fun u hu => hne.2.2 u (List.mem_of_mem_drop hu)

theorem flatten_merge (ts : List Text) :
  (merge ts).flatten = ts.flatten
  := by
  rw [merge, ← List.flatten_flatten, flatten_groups]

/-- The merged texts are the texts of groups of tokens, shapes included. -/
theorem exists_groups_eq_merge (rs : List Raw) :
  ∃ gs : List (List Raw), gs.flatten = rs
    ∧ (gs.map fun g => g.flatMap Raw.text) = merge (rs.map Raw.text)
    ∧ ∀ g ∈ gs, g.map Raw.text ∈ groups none (rs.map Raw.text)
  := by
  obtain ⟨gs, hflatten, hgroups⟩ := exists_flatten_eq (flatten_groups none (rs.map Raw.text))
  refine ⟨gs, hflatten, ?_, fun g hg => ?_⟩
  · rw [merge, ← hgroups, List.map_map]
    rfl
  · rw [← hgroups]
    apply List.mem_map_of_mem hg

/-- Merging puts together groups of one, two or three neighbours, and nothing is lost, repeated or
moved.  If no token is empty, the merged tokens do not come together any further, and merging them
again, whatever their shapes are said to be, changes nothing. -/
theorem merge_only_groups (rs : List Raw) :
  (∃ gs : List (List Raw), gs.flatten = rs ∧ (∀ g ∈ gs, g.length ∈ [1, 2, 3])
      ∧ (gs.map fun g => g.flatMap Raw.text) = merge (rs.map Raw.text))
    ∧ (merge (rs.map Raw.text)).flatten = rs.flatMap Raw.text
    ∧ ((∀ r ∈ rs, r.text ≠ []) →
      Settled (merge (rs.map Raw.text))
        ∧ ∀ rs' : List Raw, rs'.map Raw.text = merge (rs.map Raw.text) →
          merge (rs'.map Raw.text) = merge (rs.map Raw.text))
  := by
  refine ⟨?_, ?_, ?_⟩
  · obtain ⟨gs, hflatten, hmerge, hgroups⟩ := exists_groups_eq_merge rs
    refine ⟨gs, hflatten, fun g hg => ?_, hmerge⟩
    rw [← List.length_map Raw.text]
    apply length_of_mem_groups (hgroups g hg)
  · rw [flatten_merge, List.flatMap_def]
  · intro hne
    have hsettled : Settled (merge (rs.map Raw.text)) := by
      apply settled_merge
      intro t ht
      obtain ⟨r, hr, rfl⟩ := List.mem_map.mp ht
      apply hne r hr
    use hsettled
    intro rs' hrs'
    rw [hrs', hsettled.merge_eq]

/-- A compound operator, a signed number and a number in parts among tokens that stay alone. -/
theorem merge_only_groups_signs :
  (∀ r ∈ ["x", "=", "-", "3", ".", "14", "-", "=", "=", "1", ".", "2"].map
      fun w => Raw.mk .single w.toList, r.text ≠ [])
    ∧ merge (["x", "=", "-", "3", ".", "14", "-", "=", "=", "1", ".", "2"].map String.toList)
      = ["x", "=", "-3", ".", "14", "-=", "=", "1.2"].map String.toList
    ∧ Settled (["x", "=", "-3", ".", "14", "-=", "=", "1.2"].map String.toList)
  := by
  have hne : ∀ r ∈ ["x", "=", "-", "3", ".", "14", "-", "=", "=", "1", ".", "2"].map
      fun w => Raw.mk .single w.toList, r.text ≠ [] := by decide
  have hmerge : merge (["x", "=", "-", "3", ".", "14", "-", "=", "=", "1", ".", "2"].map
      String.toList) = ["x", "=", "-3", ".", "14", "-=", "=", "1.2"].map String.toList := by
    decide +kernel
  refine ⟨hne, hmerge, ?_⟩
  rw [← hmerge]
  exact ((merge_only_groups _).2.2 hne).1

end CartTokens
