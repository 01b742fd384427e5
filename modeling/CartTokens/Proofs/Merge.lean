import CartTokens.Token.Merge
import CartTokens.Proofs.Scan

/-!
# Groups of merged tokens

`Fusion` says which tokens come together with the one before them.  In the raw tokens of a text
a single dot comes only after three or four dots, so no number is put together from parts and no
two dots become an operator: a group is one token alone, a minus sign with a number, or a sign
with an equals sign (`grouped_of_mem_groups`).  Single dots have no part in merging at all
(`merge_filter_dot`).
-/

namespace CartTokens

/-! ### What comes together -/

/-- The signs that form a compound operator with an equals sign. -/
def compoundSigns : List Char :=
  ['=', '+', '-', '>', '<', '~', '!', '*', '/', '%', '^']

/-- Two texts that form a compound operator are a sign and an equals sign, or two dots. -/
theorem eq_of_isCompound {a b : Text} (ha : a ≠ []) (hb : b ≠ []) (h : isCompound a b) :
  (∃ c ∈ compoundSigns, a = [c] ∧ b = ['=']) ∨ (a = ['.'] ∧ b = ['.'])
  := by
  have hshape : ∀ w ∈ compounds, w ∈ (compoundSigns.map fun c => [c, '=']) ∨ w = ['.', '.'] := by
    decide
  have hsplit : ∀ {c d : Char}, a ++ b = [c] ++ [d] → a = [c] ∧ b = [d] := by
    intro c d hab
    have hlength := congrArg List.length hab
    have hapos := List.length_pos_iff.mpr ha
    have hbpos := List.length_pos_iff.mpr hb
    rw [List.length_append, List.length_append, List.length_singleton,
      List.length_singleton] at hlength
    apply List.append_inj hab
    rw [List.length_singleton]
    omega
  rw [isCompound, List.contains_iff_mem] at h
  rcases hshape _ h with hsign | hdots
  · obtain ⟨c, hc, heq⟩ := List.mem_map.mp hsign
    exact .inl ⟨c, hc, hsplit heq.symm⟩
  · exact .inr (hsplit hdots)

/-- How many of the tokens after `a` come together with it, and why. -/
inductive Fusion (prev : Option Text) (a : Text) : List Text → Nat → Prop where
  | alone (rest : List Text) : Fusion prev a rest 0
  | compound {b : Text} (h : isCompound a b) (rest : List Text) : Fusion prev a (b :: rest) 1
  | signed {b : Text} (ha : a = ['-']) (hb : isNumber b) (hsign : b.head? ≠ some '-')
      (hprev : prev.any signContexts.contains) (rest : List Text) : Fusion prev a (b :: rest) 1
  | fraction {b : Text} (ha : isPlainNumber a) (hb : isPlainNumber b) (rest : List Text) :
      Fusion prev a (['.'] :: b :: rest) 2

theorem fusion_fused (prev : Option Text) (a : Text) (ts : List Text) :
  Fusion prev a ts (fused prev a ts)
  := by
  unfold fused
  split
  · exact .alone []
  · rename_i b rest
    split
    · rename_i h
      simp only [Bool.and_eq_true, decide_eq_true_eq] at h
      obtain ⟨⟨rfl, ha⟩, hrest⟩ := h
      cases rest with
      | nil => contradiction
      | cons c rest => exact .fraction ha hrest rest
    · split
      · rename_i h
        exact .compound h rest
      · split
        · rename_i h
          simp only [Bool.and_eq_true, decide_eq_true_eq, bne_iff_ne] at h
          obtain ⟨⟨⟨ha, hb⟩, hsign⟩, hprev⟩ := h
          exact .signed ha hb hsign hprev rest
        · exact .alone (b :: rest)

/-! ### The shapes of groups -/

/-- A group of tokens that come together: a token alone, a minus sign and a number, or a sign
and an equals sign. -/
inductive Grouped : List Text → Prop where
  | alone (t : Text) : Grouped [t]
  | signed {t : Text} (ht : isNumber t) (hsign : t.head? ≠ some '-') : Grouped [['-'], t]
  | compound {c : Char} (hc : c ∈ compoundSigns) : Grouped [[c], ['=']]

theorem Fusion.grouped {prev : Option Text} {a : Text} {ts : List Text} {n : Nat}
    (h : Fusion prev a ts n) (hchain : (a :: ts).IsChain DotAfterDots)
    (hne : ∀ t ∈ a :: ts, t ≠ []) :
  Grouped (a :: ts.take n)
  := by
  cases h with
  | alone => exact .alone a
  | @compound b h rest =>
    rw [List.forall_mem_cons, List.forall_mem_cons] at hne
    rw [List.isChain_cons_cons] at hchain
    obtain ⟨c, hc, rfl, rfl⟩ | ⟨rfl, rfl⟩ := eq_of_isCompound hne.1 hne.2.1 h
    · exact .compound hc
    · exact absurd (hchain.1 rfl) (by decide)
  | signed ha hb hsign _ rest =>
    subst ha
    exact .signed hb hsign
  | fraction ha _ rest =>
    -- no number stands directly before a single dot
    have hdots : ∀ t ∈ dotRuns, ¬ isPlainNumber t := by decide
    rw [List.isChain_cons_cons] at hchain
    exact absurd ha (hdots a (hchain.1 rfl))

/-- A group is a token alone, a minus sign and a number, or a sign and an equals sign. -/
theorem grouped_of_mem_groups {prev : Option Text} {ts : List Text}
    (hchain : ts.IsChain DotAfterDots) (hne : ∀ t ∈ ts, t ≠ []) :
  ∀ group ∈ groups prev ts, Grouped group
  := by
  fun_induction groups prev ts with
  | case1 => exact fun group hgroup => absurd hgroup List.not_mem_nil
  | case2 prev a rest ih =>
    rw [List.forall_mem_cons]
    constructor
    · exact (fusion_fused prev a rest).grouped hchain hne
    · apply ih
      · exact hchain.of_cons.drop _
      · intro t ht
        exact hne t (List.mem_cons_of_mem a (List.mem_of_mem_drop ht))

theorem length_groups_le (prev : Option Text) (ts : List Text) :
  (groups prev ts).length ≤ ts.length
  := by
  fun_induction groups prev ts with
  | case1 => exact le_rfl
  | case2 prev a rest ih =>
    rw [List.length_drop] at ih
    rw [List.length_cons, List.length_cons]
    omega

/-! ### Single dots -/

theorem fused_cons_congr {prev prev' : Option Text}
    (hsign : prev.any signContexts.contains = prev'.any signContexts.contains) {a b : Text}
    (hb : b ≠ ['.']) (rest rest' : List Text) :
  fused prev a (b :: rest) = fused prev' a (b :: rest')
  := by
  simp [fused, hb, hsign]

/-- Dots do not come together with anything after them, unless with a single dot. -/
theorem fused_of_mem_dots {a : Text} (ha : a ∈ ['.'] :: dotRuns) {ts : List Text}
    (hnext : a = ['.'] → ts.head? ≠ some ['.']) (hne : ∀ t ∈ ts, t ≠ []) (prev : Option Text) :
  fused prev a ts = 0
  := by
  have hplain : ∀ t ∈ ['.'] :: dotRuns, t ≠ [] ∧ t ≠ ['-'] ∧ ¬ isPlainNumber t := by decide
  have hsigns : ∀ c ∈ compoundSigns, [c] ∉ ['.'] :: dotRuns := forall_mem_of_all (by decide)
  obtain ⟨hnil, hminus, hnumber⟩ := hplain a ha
  have hfusion := fusion_fused prev a ts
  generalize fused prev a ts = n at hfusion
  cases hfusion with
  | alone => rfl
  | compound h rest =>
    rw [List.forall_mem_cons] at hne
    obtain ⟨c, hc, rfl, -⟩ | ⟨rfl, rfl⟩ := eq_of_isCompound hnil hne.1 h
    · exact absurd ha (hsigns c hc)
    · exact absurd rfl (hnext rfl)
  | signed hsign => exact absurd hsign hminus
  | fraction hdigits => exact absurd hdigits hnumber

theorem Grouped.not_mem_dots {a : Text} {group : List Text} (h : Grouped (a :: group)) :
  ∀ t ∈ group, t ∉ ['.'] :: dotRuns
  := by
  have hnumber : ∀ t ∈ ['.'] :: dotRuns, ¬ isNumber t := by decide
  cases h with
  | alone => exact fun t ht => absurd ht List.not_mem_nil
  | signed hb _ =>
    rw [List.forall_mem_singleton]
    exact fun hdots => hnumber _ hdots hb
  | compound _ =>
    rw [List.forall_mem_singleton]
    decide

theorem Fusion.le_length {prev : Option Text} {a : Text} {ts : List Text} {n : Nat}
    (h : Fusion prev a ts n) :
  n ≤ ts.length
  := by
  cases h <;> simp

section

variable {a : Text} {ts : List Text} (hchain : (a :: ts).IsChain DotAfterDots)
  (hne : ∀ t ∈ a :: ts, t ≠ [])

include hchain hne

theorem fused_filter_dot {prev prev' : Option Text}
    (hsign : prev.any signContexts.contains = prev'.any signContexts.contains)
    (ha : a ≠ ['.']) :
  fused prev' a (ts.filter (· != ['.'])) = fused prev a ts
  := by
  rw [List.forall_mem_cons] at hne
  cases ts with
  | nil => rfl
  | cons b rest =>
    by_cases hb : b = ['.']
    · rw [List.isChain_cons_cons] at hchain
      have halone : ∀ {us : List Text}, (∀ t ∈ us, t ≠ []) → ∀ prev, fused prev a us = 0 :=
        fused_of_mem_dots (List.mem_cons_of_mem ['.'] (hchain.1 hb)) fun h => absurd h ha
      rw [halone hne.2, halone]
      intro t ht
      apply hne.2 t (List.mem_of_mem_filter ht)
    · rw [List.filter_cons_of_pos (by simpa using hb)]
      exact fused_cons_congr hsign.symm hb _ _

/-- A group before a single dot is not a context for signs. -/
theorem not_mem_signContexts_of_head? {prev : Option Text}
    (hhead : (ts.drop (fused prev a ts)).head? = some ['.']) :
  (a :: ts.take (fused prev a ts)).flatten ∉ signContexts
  := by
  have hruns : ∀ t ∈ dotRuns, t ∉ signContexts := by decide
  have hfusion := fusion_fused prev a ts
  generalize fused prev a ts = n at hfusion hhead
  have hgroup := (hfusion.grouped hchain hne).not_mem_dots
  rw [List.isChain_cons] at hchain
  cases hfusion with
  | alone =>
    have ha : a ∈ dotRuns := hchain.1 _ hhead rfl
    rw [List.take_zero, List.flatten_singleton]
    exact hruns a ha
  | compound _ rest =>
    have hb := (List.isChain_cons.mp hchain.2).1 _ hhead rfl
    exact absurd (List.mem_cons_of_mem _ hb) (hgroup _ List.mem_cons_self)
  | signed _ _ _ _ rest =>
    have hb := (List.isChain_cons.mp hchain.2).1 _ hhead rfl
    exact absurd (List.mem_cons_of_mem _ hb) (hgroup _ List.mem_cons_self)
  | fraction _ _ rest => exact absurd List.mem_cons_self (hgroup _ List.mem_cons_self)

/-- What comes together with a token is kept when single dots are taken out. -/
theorem filter_dot_eq_append (prev : Option Text) :
  ts.filter (· != ['.'])
    = ts.take (fused prev a ts) ++ (ts.drop (fused prev a ts)).filter (· != ['.'])
  := by
  have hgroup := ((fusion_fused prev a ts).grouped hchain hne).not_mem_dots
  nth_rewrite 1 [← List.take_append_drop (fused prev a ts) ts]
  rw [List.filter_append, List.filter_eq_self.mpr]
  intro t ht
  rw [bne_iff_ne]
  exact List.ne_of_not_mem_cons (hgroup t ht)

end

/-- Single dots have no part in merging: without them the same tokens come together. -/
theorem groups_filter_dot {ts : List Text} (hchain : ts.IsChain DotAfterDots)
    (hne : ∀ t ∈ ts, t ≠ []) {prev prev' : Option Text}
    (hsign : prev.any signContexts.contains = prev'.any signContexts.contains)
    (hhead : ts.head? = some ['.'] → prev'.any signContexts.contains = false) :
  groups prev' (ts.filter (· != ['.'])) = (groups prev ts).filter (· != [['.']])
  := by
  fun_induction groups prev ts generalizing prev' with
  | case1 => rw [List.filter_nil, groups, List.filter_nil]
  | case2 prev a rest ih =>
    have hne' : ∀ t ∈ rest, t ≠ [] := (List.forall_mem_cons.mp hne).2
    have hchain' := List.isChain_cons.mp hchain
    by_cases ha : a = ['.']
    · -- the dot is a group of its own, and the next token is no dot
      subst ha
      have hnext : rest.head? ≠ some ['.'] := by
        intro h
        exact absurd (hchain'.1 _ h rfl) (by decide)
      have hzero : fused prev ['.'] rest = 0 :=
        fused_of_mem_dots List.mem_cons_self (fun _ => hnext) hne' prev
      rw [hzero, List.drop_zero] at ih
      rw [hzero, List.drop_zero, List.take_zero, List.filter_cons_of_neg (by decide),
        List.filter_cons_of_neg (by decide)]
      apply ih hchain'.2 hne'
      · rw [hhead rfl]
        rfl
      · exact fun h => absurd h hnext
    · have hlength : (rest.take (fused prev a rest)).length = fused prev a rest :=
        List.length_take_of_le (fusion_fused prev a rest).le_length
      rw [List.filter_cons_of_pos (by simpa using ha), List.filter_cons_of_pos (by simp [ha]),
        groups, fused_filter_dot hchain hne hsign ha, filter_dot_eq_append hchain hne prev,
        List.take_left' hlength, List.drop_left' hlength]
      congr 1
      apply ih (hchain'.2.drop _)
      · exact fun t ht => hne' t (List.mem_of_mem_drop ht)
      · rfl
      · intro h
        have hcontext := not_mem_signContexts_of_head? hchain hne h
        simpa using hcontext

theorem Grouped.flatten_eq_dot_iff {group : List Text} (h : Grouped group) :
  group.flatten = ['.'] ↔ group = [['.']]
  := by
  cases h with
  | alone t => rw [List.flatten_singleton, List.singleton_inj]
  | signed _ _ => simp
  | compound _ => simp

/-- Merging tokens without single dots gives the merged tokens without single dots. -/
theorem merge_filter_dot {ts : List Text} (hchain : ts.IsChain DotAfterDots)
    (hne : ∀ t ∈ ts, t ≠ []) :
  merge (ts.filter (· != ['.'])) = (merge ts).filter (· != ['.'])
  := by
  rw [merge, groups_filter_dot hchain hne rfl fun _ => rfl, merge, List.filter_map]
  congr 1
  apply List.filter_congr
  intro group hgroup
  have hdot := (grouped_of_mem_groups hchain hne group hgroup).flatten_eq_dot_iff
  rw [Function.comp_apply, Bool.eq_iff_iff, bne_iff_ne, bne_iff_ne]
  exact not_congr hdot.symm

end CartTokens
