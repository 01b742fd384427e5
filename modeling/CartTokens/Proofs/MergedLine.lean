import CartTokens.Proofs.Settled

/-!
# Merged tokens of a line

A merged token of a line is a raw token alone, a minus sign with a number, or a sign with an equals
sign (`Line.merged_together`): a number never stands before a single dot, and two single dots never
stand side by side.  A minus sign is taken into a number exactly where the merged token before it
is a context for signs (`Line.minus_attached`).
-/

namespace CartTokens

/-! ### The raw tokens of a merged token -/

/-- The raw tokens of one merged token: a token alone, a minus sign and a number, or a sign and an
equals sign. -/
inductive Together : List Raw → Prop where
  | alone (r : Raw) : Together [r]
  | signed (t : Text) : Together [⟨.single, ['-']⟩, ⟨.number, t⟩]
  | compound {c : Char} (hc : c ∈ compoundSigns) : Together [⟨.single, [c]⟩, ⟨.single, ['=']⟩]

theorem standsAlone_of_mem_compoundSigns :
  ∀ c ∈ compoundSigns, StandsAlone c
  := by
  have hsigns : ∀ c ∈ compoundSigns, c ≠ '.' ∧ ¬ isQuote c ∧ ¬ isBlank c ∧ ¬ isNameStart c
      ∧ ¬ isDigit c := forall_mem_of_all (by decide)
  intro c hc
  obtain ⟨hdot, hquote, hblank, hname, hdigit⟩ := hsigns c hc
  exact ⟨hdot, hquote, hblank, hname, hdigit⟩

namespace Raw.Sound

variable {r : Raw}

/-- A raw token that is one character which stands alone is nothing else. -/
theorem eq_single (h : r.Sound) {c : Char} (hc : StandsAlone c) (htext : r.text = [c]) :
  r = ⟨.single, [c]⟩
  := by
  obtain _ | _ | _ | _ | ⟨-, hsingle⟩ := sound_single hc
  cases h with
  | identifier ht _ =>
    subst htext
    rw [isName, Bool.and_eq_true] at ht
    exact absurd ht.1 hc.not_nameStart
  | number ht hsign _ =>
    subst htext
    obtain rfl | hdot | hdigit := eq_or_isDigit_of_isNumber ht
    · exact absurd rfl hsign
    · exact absurd hdot hc.not_dot
    · exact absurd hdigit hc.not_digit
  | string hkind =>
    subst htext
    rw [hkind] at hsingle
    exact absurd hsingle (by decide)
  | @dots n _ _ =>
    have hdots : List.replicate n '.' = [c] := htext
    have hmem : c ∈ List.replicate n '.' := by
      rw [hdots]
      apply List.mem_singleton_self
    exact absurd (List.eq_of_mem_replicate hmem) hc.not_dot
  | single _ _ => rw [← htext]

/-- A raw token that reads as a number is a number without a sign. -/
theorem eq_number (h : r.Sound) (hnumber : isNumber r.text) :
  r = ⟨.number, r.text⟩ ∧ r.text.head? ≠ some '-'
  := by
  rw [← Kind.ofText_eq_number_iff, h.ofText_eq_number_iff] at hnumber
  cases h with
  | number _ hsign _ => exact ⟨rfl, hsign⟩
  | identifier | string | dots | single => contradiction

end Raw.Sound

theorem Grouped.together {group : List Raw} (h : Grouped (group.map Raw.text))
    (hsound : ∀ r ∈ group, r.Sound) :
  Together group
  := by
  generalize htexts : group.map Raw.text = texts at h
  cases h with
  | alone t =>
    obtain ⟨r, rfl, -⟩ := List.map_eq_singleton_iff.mp htexts
    exact .alone r
  | signed hnumber _ =>
    obtain ⟨r, rest, rfl, hr, hrest⟩ := List.map_eq_cons_iff.mp htexts
    obtain ⟨s, rfl, rfl⟩ := List.map_eq_singleton_iff.mp hrest
    rw [List.forall_mem_cons, List.forall_mem_singleton] at hsound
    have hminus := standsAlone_of_mem_compoundSigns '-' (by decide)
    rw [hsound.1.eq_single hminus hr, (hsound.2.eq_number hnumber).1]
    exact .signed s.text
  | compound hc =>
    obtain ⟨r, rest, rfl, hr, hrest⟩ := List.map_eq_cons_iff.mp htexts
    obtain ⟨s, rfl, hs⟩ := List.map_eq_singleton_iff.mp hrest
    rw [List.forall_mem_cons, List.forall_mem_singleton] at hsound
    have hequals := standsAlone_of_mem_compoundSigns '=' (by decide)
    rw [hsound.1.eq_single (standsAlone_of_mem_compoundSigns _ hc) hr,
      hsound.2.eq_single hequals hs]
    exact .compound hc

namespace Line

/-- Before a single dot there is no number and no single dot. -/
theorem not_isInfix_dot {line a : Text} (ha : isPlainNumber a ∨ a = ['.']) :
  ¬ [a, ['.']] <:+: (raws line).map Raw.text
  := by
  have hruns : ∀ t ∈ dotRuns, ¬ isPlainNumber t ∧ t ≠ ['.'] := by decide
  intro hinfix
  have hstep := List.IsChain.infix (isChain_raws line).of_cons hinfix
  obtain ⟨hplain, hdot⟩ := hruns a (List.isChain_pair.mp hstep rfl)
  obtain ha | ha := ha
  · exact hplain ha
  · exact hdot ha

/-- Every merged token of a line is a raw token, a minus sign with a number, or a sign with an
equals sign.  No number, single dot and number, and no two single dots, stand side by side. -/
theorem merged_together (line : Text) :
  (∃ gs : List (List Raw), gs.flatten = raws line
      ∧ (gs.map fun group => group.flatMap Raw.text) = merged line
      ∧ ∀ group ∈ gs, Together group)
    ∧ (¬ ∃ a b, isPlainNumber a ∧ isPlainNumber b ∧ [a, ['.'], b] <:+: (raws line).map Raw.text)
    ∧ ¬ [['.'], ['.']] <:+: (raws line).map Raw.text
  := by
  refine ⟨?_, ?_, not_isInfix_dot (.inr rfl)⟩
  · obtain ⟨gs, hflatten, hmerge, hgroups⟩ := exists_groups_eq_merge (raws line)
    refine ⟨gs, hflatten, hmerge, fun group hgroup => ?_⟩
    apply Grouped.together
    · apply grouped_of_mem_groups (isChain_raws line).of_cons _ _ (hgroups group hgroup)
      exact fun _ => ne_nil_of_mem_texts
    · intro r hr
      apply sound_of_mem_raws line
      rw [← hflatten]
      exact List.mem_flatten.mpr ⟨group, hgroup, hr⟩
  · rintro ⟨a, b, ha, -, hinfix⟩
    apply not_isInfix_dot (.inl ha)
    apply List.IsInfix.trans _ hinfix
    exact ⟨[], [b], rfl⟩

end Line

/-! ### Signs -/

/-- The numbers without a sign are those that do not begin with one. -/
theorem isUnsignedNumber_iff (t : Text) :
  isUnsignedNumber t ↔ isNumber t ∧ t.head? ≠ some '-'
  := by
  constructor
  · intro h
    have hsign : t.head? ≠ some '-' := by
      intro hminus
      obtain ⟨u, rfl⟩ := List.head?_eq_some_iff.mp hminus
      rw [isUnsignedNumber, isDotted, Bool.and_eq_true, List.all_cons, Bool.and_eq_true] at h
      · exact absurd h.2.1 (by decide)
      · intro mark rest heq
        exact absurd (List.cons.inj heq).1 (by decide)
    refine ⟨?_, hsign⟩
    unfold isNumber
    split
    · exact absurd rfl hsign
    · exact h
  · rintro ⟨h, hsign⟩
    unfold isNumber at h
    split at h
    · exact absurd rfl hsign
    · exact h

namespace Line

theorem settled_merged (line : Text) :
  Settled (merged line)
  := settled_merge fun _ => ne_nil_of_mem_texts

/-- A merged number with a sign comes after a context for signs. -/
theorem signContext_of_merged {line t : Text} {before after : List Text}
    (h : merged line = before ++ ('-' :: t) :: after) (ht : isUnsignedNumber t) :
  before.getLast?.any signContexts.contains
  := by
  have hnumber : isNumber ('-' :: t) := ht
  obtain ⟨earlier, a, rest, htexts, hgroup, -⟩ := merge_eq_append h
  have hfusion := fusion_fused before.getLast? a rest
  generalize fused before.getLast? a rest = n at hfusion hgroup
  rw [hgroup] at hnumber
  cases hfusion with
  | alone _ =>
    -- no raw token has a sign
    have hmem : a ∈ (raws line).map Raw.text := by
      rw [htexts]
      exact List.mem_append_right _ List.mem_cons_self
    obtain ⟨r, hr, rfl⟩ := List.mem_map.mp hmem
    rw [List.take_zero, List.flatten_singleton] at hgroup hnumber
    have hsign := ((sound_of_mem_raws line r hr).eq_number hnumber).2
    rw [← hgroup] at hsign
    exact absurd rfl hsign
  | compound hcompound rest =>
    exact absurd (by simpa using hnumber) (not_isNumber_of_isCompound hcompound)
  | signed _ _ _ hprev rest => exact hprev
  | fraction hplain _ rest =>
    have ha : a ≠ [] := by
      rintro rfl
      contradiction
    have hhead := congrArg List.head? hgroup
    rw [List.flatten_cons, List.head?_append_of_ne_nil _ ha] at hhead
    exact absurd hhead.symm (isNumber_of_isPlainNumber hplain).2

/-- A minus sign that stands alone before a number does not come after a context for signs. -/
theorem not_signContext_of_merged {line t : Text} {before after : List Text}
    (h : merged line = before ++ ['-'] :: t :: after) (ht : isUnsignedNumber t) :
  ¬ before.getLast?.any signContexts.contains
  := by
  intro hprev
  obtain ⟨hnumber, hsign⟩ := (isUnsignedNumber_iff t).mp ht
  have hfusion : Fusion before.getLast? ['-'] (t :: after) 1 :=
    .signed rfl hnumber hsign hprev after
  exact absurd (settled_merged line before ['-'] (t :: after) 1 h hfusion) Nat.one_ne_zero

/-- The token at an index with those before and after it, and the token before it. -/
theorem eq_append_of_getElem? {ms : List Text} {i : Nat} {m : Text} (h : ms[i]? = some m) :
  ms = ms.take i ++ m :: ms.drop (i + 1)
    ∧ (i = 0 ∨ ∃ p, ms[i - 1]? = some p ∧ (ms.take i).getLast? = some p)
  := by
  obtain ⟨hi, rfl⟩ := List.getElem?_eq_some_iff.mp h
  constructor
  · rw [List.getElem_cons_drop, List.take_append_drop]
  · by_cases hzero : i = 0
    · exact .inl hzero
    · have hbefore : ms[i - 1]? = some ms[i - 1] := List.getElem?_eq_getElem (by omega)
      right
      use ms[i - 1], hbefore
      rw [List.getLast?_take, if_neg hzero, hbefore, Option.some_or]

/-- A minus sign is taken into the number after it only behind a context for signs, and stands
alone before a number only at the beginning of the line or behind a token that is no such
context. -/
theorem minus_attached (line : Text) (i : Nat) {t : Text} (ht : isUnsignedNumber t) :
  ((merged line)[i]? = some ('-' :: t) →
      0 < i ∧ ∃ p ∈ signContexts, (merged line)[i - 1]? = some p)
    ∧ ((merged line)[i]? = some ['-'] → (merged line)[i + 1]? = some t →
      i = 0 ∨ ∃ p ∉ signContexts, (merged line)[i - 1]? = some p)
  := by
  constructor
  · intro h
    obtain ⟨hplace, hbefore⟩ := eq_append_of_getElem? h
    have hprev := signContext_of_merged hplace ht
    obtain rfl | ⟨p, hp, hlast⟩ := hbefore
    · contradiction
    · rw [hlast, Option.any_some, List.contains_iff_mem] at hprev
      refine ⟨?_, p, hprev, hp⟩
      apply Nat.pos_of_ne_zero
      rintro rfl
      contradiction
  · intro h hnext
    obtain ⟨hplace, hbefore⟩ := eq_append_of_getElem? h
    obtain ⟨hlt, rfl⟩ := List.getElem?_eq_some_iff.mp hnext
    rw [← List.getElem_cons_drop hlt] at hplace
    have hprev := not_signContext_of_merged hplace ht
    obtain rfl | ⟨p, hp, hlast⟩ := hbefore
    · exact .inl rfl
    · rw [hlast, Option.any_some, List.contains_iff_mem] at hprev
      exact .inr ⟨p, hprev, hp⟩

/-- The first minus sign belongs to the number after it, the second one does not. -/
theorem minus_attached_twice :
  isUnsignedNumber ['1'] ∧ isUnsignedNumber ['2']
    ∧ merged "x=-1-2".toList = ["x", "=", "-1", "-", "2"].map String.toList
    ∧ (∃ p ∈ signContexts, (merged "x=-1-2".toList)[1]? = some p)
    ∧ ∃ p ∉ signContexts, (merged "x=-1-2".toList)[2]? = some p
  := by
  have hmerged : merged "x=-1-2".toList = ["x", "=", "-1", "-", "2"].map String.toList := by
    decide +kernel
  have hsigned := (minus_attached "x=-1-2".toList 2 (t := ['1']) (by decide)).1
    (by rw [hmerged]; rfl)
  have hfree := (minus_attached "x=-1-2".toList 3 (t := ['2']) (by decide)).2
    (by rw [hmerged]; rfl) (by rw [hmerged]; rfl)
  obtain hzero | hfree := hfree
  · contradiction
  · exact ⟨by decide, by decide, hmerged, hsigned.2, hfree⟩

end Line

end CartTokens
