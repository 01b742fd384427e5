import CartTokens.Proofs.Opaque

/-!
# Characters that join

Two neighbouring characters join if they can belong to one lexeme or form a mark together
(`Joins`).  The characters of a lexeme other than a string join one after the other
(`Lexeme.Maximal.isChain_joins`).  So a blank put between two characters that do not join falls
between two lexemes or into a string, and the raw tokens stay similar
(`forall₂_scan_insert_blank`).
-/

namespace CartTokens

/-- Two neighbouring characters that are read together in some text: characters of a name or a
number, dots, a dot and a digit before or after it, the mark of a comment, and an escape with
what it escapes. -/
inductive Joins : Char → Char → Prop where
  | name {l r : Char} (hl : isNameChar l) (hr : isNameChar r) : Joins l r
  | dots : Joins '.' '.'
  | fraction {r : Char} (hr : isHexDigit r) : Joins '.' r
  | point {l : Char} (hl : isHexDigit l ∨ l ∈ radixMarks) : Joins l '.'
  | comment {l r : Char} (h : [l, r] ∈ lineMarkers) : Joins l r
  | escape {r : Char} (hr : r = '\\' ∨ isQuote r) : Joins '\\' r

theorem joins_iff (l r : Char) :
  Joins l r ↔ (isNameChar l ∧ isNameChar r)
    ∨ (l = '.' ∧ (r = '.' ∨ isHexDigit r))
    ∨ (r = '.' ∧ (isHexDigit l ∨ l ∈ radixMarks))
    ∨ [l, r] ∈ lineMarkers
    ∨ (l = '\\' ∧ (r = '\\' ∨ isQuote r))
  := by
  constructor
  · intro h
    cases h with
    | name hl hr => exact .inl ⟨hl, hr⟩
    | dots => exact .inr (.inl ⟨rfl, .inl rfl⟩)
    | fraction hr => exact .inr (.inl ⟨rfl, .inr hr⟩)
    | point hl => exact .inr (.inr (.inl ⟨rfl, hl⟩))
    | comment h => exact .inr (.inr (.inr (.inl h)))
    | escape hr => exact .inr (.inr (.inr (.inr ⟨rfl, hr⟩)))
  · rintro (⟨hl, hr⟩ | ⟨rfl, rfl | hr⟩ | ⟨rfl, hl⟩ | h | ⟨rfl, hr⟩)
    · exact .name hl hr
    · exact .dots
    · exact .fraction hr
    · exact .point hl
    · exact .comment h
    · exact .escape hr

instance (l r : Char) : Decidable (Joins l r) :=
  decidable_of_iff' _ (joins_iff l r)

/-- The last character of the first text and the first one of the second do not join. -/
def Apart (s t : Text) : Prop :=
  ∀ l ∈ s.getLast?, ∀ r ∈ t.head?, ¬ Joins l r

theorem Apart.mono {s s' t t' : Text} (h : Apart s t) (hs : s' <:+ s) (ht : t' <+: t) :
  Apart s' t'
  := by
  obtain ⟨u, rfl⟩ := hs
  obtain ⟨v, rfl⟩ := ht
  intro l hl r hr
  apply h l _ r _
  · apply List.mem_getLast?_append_of_mem_getLast? hl
  · apply List.mem_head?_append_of_mem_head? hr

theorem apart_concat_cons {l r : Char} (h : ¬ Joins l r) (s t : Text) :
  Apart (s ++ [l]) (r :: t)
  := by
  intro l' hl' r' hr'
  rw [List.getLast?_concat] at hl'
  obtain rfl := Option.some.inj hl'
  obtain rfl := Option.some.inj hr'
  exact h

theorem Apart.of_cons {c : Char} {s t : Text} (h : Apart (c :: s) t) :
  Apart s t
  := h.mono (List.suffix_cons c s) List.prefix_rfl

theorem not_joins_of_isBlank_left {l r : Char} (hl : isBlank l) :
  ¬ Joins l r
  := by
  have hmarks : ∀ mark ∈ lineMarkers, mark.all fun c => !isBlank c := by decide
  intro h
  cases h with
  | name hname _ => exact not_isBlank_of_isNameChar hname hl
  | dots => contradiction
  | fraction _ => contradiction
  | point hdigit =>
    obtain hdigit | hmark := hdigit
    · exact not_isBlank_of_isNameChar (isNameChar_of_isHexDigit hdigit) hl
    · exact not_isBlank_of_mem_radixMarks l hmark hl
  | comment hmark =>
    have hall := List.all_eq_true.mp (hmarks _ hmark) l (by simp)
    rw [hl] at hall
    contradiction
  | escape _ => contradiction

namespace Lexeme

/-! ### The characters of a lexeme -/

theorem isHexDigit_of_isDigit {d : Char} (h : isDigit d) :
  isHexDigit d
  := by
  rw [isHexDigit, h, Bool.true_or, Bool.true_or]

theorem isHexDigit_of_isRadixDigit {mark d : Char} (h : isRadixDigit mark d) :
  isHexDigit d
  := by
  simp only [isRadixDigit, Bool.or_eq_true, beq_iff_eq] at h
  split at h
  · exact h
  · split at h
    · obtain rfl | rfl : d = '0' ∨ d = '1' := by simpa using h
      · decide
      · decide
    · contradiction

/-- Digits and dots join. -/
theorem joins_of_isNumberChar {digit : Char → Bool} (hdigit : ∀ d, digit d → isHexDigit d)
    {l r : Char} (hl : isNumberChar digit l) (hr : isNumberChar digit r) :
  Joins l r
  := by
  rw [isNumberChar, Bool.or_eq_true, beq_iff_eq] at hl hr
  obtain rfl | hl := hl
  · obtain rfl | hr := hr
    · exact .dots
    · exact .fraction (hdigit r hr)
  · obtain rfl | hr := hr
    · exact .point (.inl (hdigit l hl))
    · exact .name (isNameChar_of_isHexDigit (hdigit l hl)) (isNameChar_of_isHexDigit (hdigit r hr))

theorem isChain_joins_of_isNumberChar {digit : Char → Bool}
    (hdigit : ∀ d, digit d → isHexDigit d) {t : Text} (h : ∀ c ∈ t, isNumberChar digit c) :
  t.IsChain Joins
  := by
  apply List.Pairwise.isChain
  apply List.pairwise_of_forall_mem_list
  intro l hl r hr
  apply joins_of_isNumberChar hdigit (h l hl) (h r hr)

/-- The characters of a lexeme that is no string join one after the other. -/
theorem Maximal.isChain_joins {l : Lexeme} {rest : Text} (h : l.Maximal rest)
    (hstring : ∀ t, l ≠ .string t) :
  l.text.IsChain Joins
  := by
  cases h with
  | blank _ => exact .singleton _
  | dots _ =>
    apply List.Pairwise.isChain
    apply List.pairwise_replicate.mpr (.inr .dots)
  | name hc ht _ =>
    apply List.Pairwise.isChain
    apply List.pairwise_of_forall_mem_list
    have hname : ∀ c ∈ _ :: _, isNameChar c :=
      List.forall_mem_cons.mpr ⟨isNameChar_of_isNameStart hc, ht⟩
    exact fun l hl r hr => .name (hname l hl) (hname r hr)
  | decimal hd ht _ _ =>
    apply isChain_joins_of_isNumberChar (fun _ => isHexDigit_of_isDigit)
    rw [text, List.forall_mem_cons, isNumberChar, hd, Bool.or_true]
    exact ⟨rfl, ht⟩
  | @radix mark t _ hlead ht _ =>
    have hmark := isNameChar_of_mem_radixMarks mark hlead.mem_radixMarks
    rw [text, List.isChain_cons_cons, List.isChain_cons]
    refine ⟨.name (by decide) hmark, ?_, ?_⟩
    · intro c hc
      have hchar := ht c (List.mem_of_mem_head? hc)
      rw [isNumberChar, Bool.or_eq_true, beq_iff_eq] at hchar
      obtain rfl | hdigit := hchar
      · exact .point (.inr hlead.mem_radixMarks)
      · exact .name hmark (isNameChar_of_isRadixDigit hdigit)
    · apply isChain_joins_of_isNumberChar (fun _ => isHexDigit_of_isRadixDigit) ht
  | string _ _ => exact absurd rfl (hstring _)
  | single _ => exact .singleton _

/-! ### A blank in a string -/

theorem takeString_plain {quote c : Char} (hquote : c ≠ quote) (hescape : c ≠ '\\') (t : Text) :
  takeString quote (c :: t) = (c :: (takeString quote t).1, (takeString quote t).2)
  := by
  rw [takeString, if_neg hquote]
  rintro d cs rfl
  contradiction

section

variable {quote : Char} (hquote : isQuote quote) {t u rest : Text} (ht : t ≠ [])

include hquote ht

/-- A character put in after a backslash is escaped in the place of one that needs no escape. -/
theorem takeString_insert_escaped (c : Char) (hapart : Apart ['\\'] t)
    (h : takeString quote ('\\' :: u) = ('\\' :: t, rest)) :
  takeString quote ('\\' :: c :: u) = ('\\' :: c :: t, rest)
  := by
  cases u with
  | nil =>
    have hend : takeString quote ['\\'] = (['\\'], []) := by
      simp [takeString, (ne_backslash_of_isQuote hquote).symm]
    rw [hend, Prod.mk.injEq, List.cons.injEq] at h
    exact absurd h.1.2.symm ht
  | cons d u =>
    rw [takeString, Prod.mk.injEq, List.cons.injEq] at h
    obtain ⟨⟨-, rfl⟩, rfl⟩ := h
    have hfree : ¬ Joins '\\' d := hapart _ rfl _ rfl
    have hdquote : d ≠ quote := by
      rintro rfl
      exact hfree (.escape (.inr hquote))
    have hdescape : d ≠ '\\' := fun hd => hfree (.escape (.inl hd))
    rw [takeString, takeString_plain hdquote hdescape]

/-- A blank put into a string makes the string longer and does nothing else, unless it comes
between a backslash and a character that needs it. -/
theorem takeString_insert_blank {c : Char} (hc : isBlank c) {s : Text} (hapart : Apart s t)
    (h : takeString quote (s ++ u) = (s ++ t, rest)) :
  takeString quote (s ++ c :: u) = (s ++ c :: t, rest)
  := by
  fun_induction takeString quote s with
  | case1 =>
    have hcquote : c ≠ quote := by
      rintro rfl
      exact not_isBlank_of_isQuote hquote hc
    have hcescape : c ≠ '\\' := by
      rintro rfl
      contradiction
    rw [List.nil_append] at h
    rw [List.nil_append, takeString_plain hcquote hcescape, h]
    rfl
  | case2 d cs ih =>
    rw [List.cons_append, List.cons_append, takeString] at h
    have hrest : takeString quote (cs ++ u) = (cs ++ t, rest) := by
      simpa [Prod.ext_iff] using h
    rw [List.cons_append, List.cons_append, takeString, ih hapart.of_cons.of_cons hrest]
    rfl
  | case3 cs =>
    -- the string would be over before the blank
    have hclosed : takeString quote (quote :: (cs ++ u)) = ([quote], cs ++ u) := by
      rw [takeString, if_pos rfl]
      rintro d cs' rfl
      contradiction
    rw [List.cons_append, hclosed, Prod.mk.injEq, List.cons_append, List.cons.injEq] at h
    exact absurd (List.append_eq_nil_iff.mp h.1.2.symm).2 ht
  | case4 d cs hnot hne ih =>
    by_cases hescape : d = '\\'
    · subst hescape
      cases cs with
      | nil => apply takeString_insert_escaped hquote ht c hapart h
      | cons e cs => exact absurd rfl (hnot e cs rfl)
    · rw [List.cons_append, takeString_plain hne hescape] at h
      have hrest : takeString quote (cs ++ u) = (cs ++ t, rest) := by
        simpa [Prod.ext_iff] using h
      rw [List.cons_append, takeString_plain hne hescape, ih hapart.of_cons hrest]
      rfl

end

theorem StringTail.insert_blank {quote : Char} (hquote : isQuote quote) {c : Char}
    (hc : isBlank c) {s t rest : Text} (ht : t ≠ []) (hapart : Apart s t)
    (h : StringTail quote (s ++ t) rest) :
  StringTail quote (s ++ c :: t) rest
  := by
  have htake := h.takeString_eq (ne_backslash_of_isQuote hquote)
  rw [List.append_assoc] at htake
  have hlonger := stringTail_takeString quote (s ++ c :: (t ++ rest))
  rwa [takeString_insert_blank hquote ht hc hapart htake] at hlonger

/-- A blank put into a lexeme, between characters that do not join, is put into a string. -/
theorem Maximal.exists_insert_blank {l : Lexeme} {rest : Text} (h : l.Maximal rest) {s t : Text}
    (hl : l.text = s ++ t) (hs : s ≠ []) (ht : t ≠ []) (hapart : Apart s t) {c : Char}
    (hc : isBlank c) :
  ∃ l' : Lexeme, l'.Maximal rest ∧ l'.text = s ++ c :: t
    ∧ List.Forall₂ Similar (l.raws.map Raw.text) (l'.raws.map Raw.text)
  := by
  have hstring : ∃ u, l = .string u := by
    by_contra hnone
    have hchain := h.isChain_joins fun u hu => hnone ⟨u, hu⟩
    rw [hl, List.isChain_append] at hchain
    obtain ⟨r, t, rfl⟩ := List.exists_cons_of_ne_nil ht
    apply hapart _ (List.getLast?_eq_some_getLast hs) r rfl
    apply hchain.2.2 _ (List.getLast?_eq_some_getLast hs) r rfl
  obtain ⟨u, rfl⟩ := hstring
  obtain _ | _ | _ | _ | _ | @⟨quote, u, _, hquote, htail⟩ | _ := h
  obtain ⟨d, s, rfl⟩ := List.exists_cons_of_ne_nil hs
  obtain ⟨rfl, rfl⟩ := List.cons.inj hl
  use .string (quote :: (s ++ c :: t))
  refine ⟨.string hquote (htail.insert_blank hquote hc ht hapart.of_cons), rfl, ?_⟩
  apply List.Forall₂.cons _ .nil
  exact .inr ⟨hquote, hquote⟩

/-! ### A blank in a cut -/

/-- The lexemes of a text are cut in two at a place, or the place lies in one of them. -/
theorem flatMap_text_eq_append {ls : List Lexeme} {s t : Text} (h : ls.flatMap text = s ++ t) :
  (∃ before after, ls = before ++ after ∧ before.flatMap text = s ∧ after.flatMap text = t)
    ∨ ∃ before l after u v, ls = before ++ l :: after ∧ l.text = u ++ v ∧ u ≠ [] ∧ v ≠ []
      ∧ s = before.flatMap text ++ u ∧ t = v ++ after.flatMap text
  := by
  induction ls generalizing s with
  | nil =>
    obtain ⟨rfl, rfl⟩ := List.append_eq_nil_iff.mp h.symm
    exact .inl ⟨[], [], rfl, rfl, rfl⟩
  | cons l ls ih =>
    rw [List.flatMap_cons, List.append_eq_append_iff] at h
    obtain ⟨s, rfl, hls⟩ | ⟨v, hl, rfl⟩ := h
    · obtain ⟨before, after, rfl, rfl, rfl⟩ | ⟨before, k, after, u, v, rfl, hk, hu, hv, rfl, rfl⟩
        := ih hls
      · exact .inl ⟨l :: before, after, rfl, List.flatMap_cons, rfl⟩
      · refine .inr ⟨l :: before, k, after, u, v, rfl, hk, hu, hv, ?_, rfl⟩
        rw [List.flatMap_cons, List.append_assoc]
    · by_cases hs : s = []
      · subst hs
        exact .inl ⟨[], l :: ls, rfl, rfl, by rw [List.flatMap_cons, hl, List.nil_append]⟩
      by_cases hv : v = []
      · subst hv
        rw [List.append_nil] at hl
        exact .inl ⟨[l], ls, rfl, by rw [List.flatMap_singleton, hl], rfl⟩
      · exact .inr ⟨[], l, ls, s, v, rfl, hl, hs, hv, rfl, rfl⟩

theorem IsCut.of_append {before after : List Lexeme} (h : IsCut (before ++ after)) :
  IsCut after
  := by
  rintro before' l after' rfl
  apply h (before ++ before') l after'
  rw [List.append_assoc]

/-- The lexemes before a place stay maximal when a blank is put in behind that place. -/
theorem IsCut.replace_tail {before tail tail' : List Lexeme} (h : IsCut (before ++ tail))
    (htail : IsCut tail') {s t : Text} (hs : tail.flatMap text = s ++ t) (ht : t ≠ []) {c : Char}
    (hc : isBlank c) (hs' : tail'.flatMap text = s ++ c :: t) :
  IsCut (before ++ tail')
  := by
  induction before with
  | nil => exact htail
  | cons l before ih =>
    rw [List.cons_append, isCut_cons, List.flatMap_append, hs, ← List.append_assoc] at h
    rw [List.cons_append, isCut_cons, List.flatMap_append, hs', ← List.append_assoc]
    exact ⟨h.1.insert_blank ht hc, ih h.2⟩

/-- A blank put between two characters that do not join is a lexeme of its own or makes a string
longer. -/
theorem exists_cut_insert_blank {s t : Text} (ht : t ≠ []) (hapart : Apart s t) {c : Char}
    (hc : isBlank c) :
  ∃ before tail tail', cut (s ++ t) = before ++ tail ∧ cut (s ++ c :: t) = before ++ tail'
    ∧ List.Forall₂ Similar ((tail.flatMap raws).map Raw.text) ((tail'.flatMap raws).map Raw.text)
  := by
  have hcut := isCut_cut (s ++ t)
  obtain ⟨before, after, hls, rfl, rfl⟩ | ⟨before, l, after, u, v, hls, hl, hu, hv, rfl, rfl⟩ :=
    flatMap_text_eq_append (flatMap_text_cut (s ++ t))
  · rw [hls] at hcut
    have hafter : IsCut (.blank c :: after) := (isCut_cons _ _).mpr ⟨.blank hc, hcut.of_append⟩
    use before, after, .blank c :: after, hls
    constructor
    · rw [cut_eq_iff, List.flatMap_append]
      use rfl
      apply hcut.replace_tail hafter (s := []) rfl ht hc rfl
    · apply forall₂_similar_refl
  · rw [hls] at hcut
    have hcut' := (isCut_cons _ _).mp hcut.of_append
    have hapart' : Apart u v := hapart.mono (List.suffix_append _ u) (List.prefix_append v _)
    obtain ⟨l', hmax, htext, hraws⟩ := hcut'.1.exists_insert_blank hl hu hv hapart' hc
    have hafter : IsCut (l' :: after) := (isCut_cons _ _).mpr ⟨hmax, hcut'.2⟩
    use before, l :: after, l' :: after, hls
    constructor
    · rw [cut_eq_iff, List.flatMap_append, List.flatMap_cons, htext]
      use by simp
      apply hcut.replace_tail hafter (s := u) _ ht hc
      · rw [List.flatMap_cons, htext, List.append_assoc]
        rfl
      · rw [List.flatMap_cons, hl, List.append_assoc]
    · rw [List.flatMap_cons, List.flatMap_cons, List.map_append, List.map_append]
      apply List.rel_append hraws (forall₂_similar_refl _)

end Lexeme

/-- A blank put between two characters that do not join leaves the raw tokens similar. -/
theorem forall₂_scan_insert_blank {s t : Text} (ht : t ≠ []) (hapart : Apart s t) {c : Char}
    (hc : isBlank c) :
  List.Forall₂ Similar ((scan (s ++ t)).map Raw.text) ((scan (s ++ c :: t)).map Raw.text)
  := by
  obtain ⟨before, tail, tail', hcut, hcut', htail⟩ := Lexeme.exists_cut_insert_blank ht hapart hc
  rw [scan, scan, hcut, hcut', List.flatMap_append, List.flatMap_append, List.map_append,
    List.map_append]
  apply List.rel_append (forall₂_similar_refl _) htail

end CartTokens
