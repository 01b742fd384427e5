import CartTokens.Token.Kind
import CartTokens.Proofs.Merge

/-!
# Kinds of tokens

The kind of a merged token is read off its text, and the shapes of the raw tokens it is made of
are forgotten.  `Raw.Sound` says what the text of a raw token of each shape looks like and which
kinds it can have, `KindAgrees` which kind a merged token has because of its raw tokens; both
hold of every line (`Line.kinds_agree`).
-/

namespace CartTokens

/-! ### The vocabulary -/

/-- All words and signs of the vocabulary. -/
def vocabulary : List Text :=
  structural ++ elidedWords ++ literals ++ operators ++ symbols ++ keywords

namespace Kind

/-- The words and signs of the vocabulary are neither numbers nor strings nor invalid; those that
are names are no symbols, and single characters are operators, symbols or free. -/
theorem ofText_of_mem_vocabulary :
  ∀ t ∈ vocabulary, ofText t ∉ [.number, .invalid] ∧ ¬ isNumber t ∧ ¬ isString t
    ∧ (isName t → ofText t ∉ [.number, .string, .symbol, .invalid])
    ∧ (t.length = 1 → ofText t ∈ [.operator, .symbol, .elided, .invalid])
  := by decide +kernel

/-- Outside the vocabulary the shape of the text decides. -/
theorem ofText_of_not_mem_vocabulary {t : Text} (hne : t ≠ []) (h : t ∉ vocabulary) :
  ofText t
    = if isNumber t then .number
      else if isString t then .string
      else if isGlyphRun t then .glyphs
      else if isName t then .identifier
      else .invalid
  := by
  simp only [vocabulary, List.mem_append, not_or] at h
  simp [ofText, hne, h]

/-- Numbers, and nothing else, have the kind of numbers. -/
theorem ofText_eq_number_iff (t : Text) :
  ofText t = .number ↔ isNumber t
  := by
  by_cases hne : t = []
  · subst hne
    decide
  by_cases hmem : t ∈ vocabulary
  · obtain ⟨hkind, hnumber, -⟩ := ofText_of_mem_vocabulary t hmem
    exact iff_of_false (List.ne_of_not_mem_cons hkind) hnumber
  · rw [ofText_of_not_mem_vocabulary hne hmem]
    split_ifs <;> simp_all

end Kind

/-! ### Raw tokens -/

/-- The text of a raw token is what its shape says, and its kind agrees with the shape. -/
inductive Raw.Sound : Raw → Prop where
  | identifier {t : Text} (ht : isName t)
      (hkind : Kind.ofText t ∉ [.number, .string, .symbol, .invalid]) : Sound ⟨.identifier, t⟩
  | number {t : Text} (ht : isNumber t) (hsign : t.head? ≠ some '-')
      (hkind : Kind.ofText t = .number) : Sound ⟨.number, t⟩
  | string {t : Text} (hkind : Kind.ofText t = .string) : Sound ⟨.string, t⟩
  | dots {n : Nat} (hpos : 1 ≤ n) (hle : n ≤ 4) : Sound ⟨.dots, List.replicate n '.'⟩
  | single {c : Char} (hc : StandsAlone c)
      (hkind : Kind.ofText [c] ∈ [.operator, .symbol, .elided, .invalid]) :
      Sound ⟨.single, [c]⟩

/-- A number begins with a minus sign, a dot or a digit. -/
theorem eq_or_isDigit_of_isNumber {c : Char} {t : Text} (h : isNumber (c :: t)) :
  c = '-' ∨ c = '.' ∨ isDigit c
  := by
  unfold isNumber at h
  split at h
  · rename_i heq
    exact .inl (List.cons.inj heq).1
  · right
    unfold isUnsignedNumber at h
    split at h
    · rename_i heq
      obtain ⟨rfl, -⟩ := List.cons.inj heq
      exact .inr (by decide)
    · rw [isDotted, Bool.and_eq_true, List.all_cons, Bool.and_eq_true, Bool.or_eq_true,
        beq_iff_eq] at h
      exact h.2.1

theorem not_isNumber_cons {c : Char} (hminus : c ≠ '-') (hdot : c ≠ '.') (hdigit : ¬ isDigit c)
    (t : Text) :
  ¬ isNumber (c :: t)
  := by
  intro h
  rcases eq_or_isDigit_of_isNumber h with hc | hc | hc
  · exact hminus hc
  · exact hdot hc
  · exact hdigit hc

theorem sound_of_isName {t : Text} (h : isName t) :
  Raw.Sound ⟨.identifier, t⟩
  := by
  apply Raw.Sound.identifier h
  obtain _ | ⟨c, t⟩ := t
  · contradiction
  by_cases hmem : c :: t ∈ vocabulary
  · obtain ⟨-, -, -, hname, -⟩ := Kind.ofText_of_mem_vocabulary _ hmem
    apply hname h
  · have hc : isNameStart c := by
      rw [isName, Bool.and_eq_true] at h
      exact h.1
    have hchar := isNameChar_of_isNameStart hc
    have hminus : c ≠ '-' := by
      rintro rfl
      contradiction
    have hdigit : ¬ isDigit c := fun hd => not_isNameStart_of_isDigit hd hc
    have hnumber := not_isNumber_cons hminus (ne_dot_of_isNameChar hchar) hdigit t
    have hstring : ¬ isString (c :: t) := not_isQuote_of_isNameChar hchar
    rw [Kind.ofText_of_not_mem_vocabulary (List.cons_ne_nil c t) hmem, if_neg hnumber,
      if_neg hstring, if_pos h]
    split <;> decide

/-- A decimal number has the shape of a number. -/
theorem isUnsignedNumber_of_decimal {d : Char} {t : Text} (hd : isDigit d)
    (ht : ∀ c ∈ t, Lexeme.isNumberChar isDigit c) :
  isUnsignedNumber (d :: t)
  := by
  have hdotted : isDotted isDigit (d :: t) := by
    rw [isDotted, Bool.and_eq_true, List.all_eq_true, List.forall_mem_cons]
    refine ⟨?_, ?_, ht⟩
    · rw [List.any_cons, hd, Bool.true_or]
    · rw [hd, Bool.or_true]
  unfold isUnsignedNumber
  split
  · rename_i mark rest heq
    obtain ⟨rfl, rfl⟩ := List.cons.inj heq
    have hmark := ht mark List.mem_cons_self
    rw [if_neg]
    · exact hdotted
    · intro hradix
      simp only [Bool.or_eq_true, beq_iff_eq] at hradix
      rcases hradix with ((rfl | rfl) | rfl) | rfl <;> contradiction
  · exact hdotted

/-- A number in another radix has the shape of a number. -/
theorem isUnsignedNumber_of_radix {mark : Char} {t : Text} (hlead : Lexeme.LeadsDigit mark t)
    (ht : ∀ c ∈ t, Lexeme.isNumberChar (isRadixDigit mark) c) :
  isUnsignedNumber ('0' :: mark :: t)
  := by
  have hmarks : ∀ m ∈ radixMarks, (m == 'x' || m == 'X' || m == 'b' || m == 'B') = true :=
    forall_mem_of_all (by decide)
  rw [isUnsignedNumber, if_pos (hmarks mark hlead.mem_radixMarks), isDotted, Bool.and_eq_true,
    List.any_eq_true, List.all_eq_true]
  refine ⟨?_, ht⟩
  obtain ⟨d, u, hd, rfl | rfl⟩ := hlead
  · exact ⟨d, List.mem_cons_self, hd⟩
  · exact ⟨d, List.mem_cons_of_mem '.' List.mem_cons_self, hd⟩

theorem sound_of_isUnsignedNumber {d : Char} (hd : isDigit d) {t : Text}
    (h : isUnsignedNumber (d :: t)) :
  Raw.Sound ⟨.number, d :: t⟩
  := by
  have hminus : d ≠ '-' := by
    rintro rfl
    contradiction
  have hnumber : isNumber (d :: t) := by
    unfold isNumber
    split
    · rename_i heq
      exact absurd (List.cons.inj heq).1 hminus
    · exact h
  refine .number hnumber ?_ ((Kind.ofText_eq_number_iff _).mpr hnumber)
  rwa [List.head?_cons, Ne, Option.some.injEq]

theorem sound_string {quote : Char} (hquote : isQuote quote) (t : Text) :
  Raw.Sound ⟨.string, quote :: t⟩
  := by
  apply Raw.Sound.string
  have hstring : isString (quote :: t) := hquote
  have hmem : quote :: t ∉ vocabulary := by
    intro hmem
    obtain ⟨-, -, hnot, -, -⟩ := Kind.ofText_of_mem_vocabulary _ hmem
    apply hnot hstring
  have hnumber : ¬ isNumber (quote :: t) := by
    obtain rfl | rfl := (isQuote_iff quote).mp hquote
    · exact not_isNumber_cons (by decide) (by decide) (by decide) t
    · exact not_isNumber_cons (by decide) (by decide) (by decide) t
  rw [Kind.ofText_of_not_mem_vocabulary (List.cons_ne_nil quote t) hmem, if_neg hnumber,
    if_pos hstring]

theorem ofText_of_standsAlone {c : Char} (h : StandsAlone c) (hmem : [c] ∉ vocabulary) :
  Kind.ofText [c] = .invalid
  := by
  have hminus : c ≠ '-' := by
    rintro rfl
    exact hmem (by decide)
  have hnumber := not_isNumber_cons hminus h.not_dot h.not_digit []
  have hstring : ¬ isString [c] := h.not_quote
  have hglyphs : ¬ isGlyphRun [c] := by
    intro hrun
    apply h.not_nameStart
    apply isNameStart_of_isGlyph
    simpa [isGlyphRun] using hrun
  have hname : ¬ isName [c] := by
    simpa [isName] using h.not_nameStart
  rw [Kind.ofText_of_not_mem_vocabulary (List.cons_ne_nil c []) hmem, if_neg hnumber,
    if_neg hstring, if_neg hglyphs, if_neg hname]

theorem sound_single {c : Char} (h : StandsAlone c) :
  Raw.Sound ⟨.single, [c]⟩
  := by
  apply Raw.Sound.single h
  by_cases hmem : [c] ∈ vocabulary
  · obtain ⟨-, -, -, -, hsingle⟩ := Kind.ofText_of_mem_vocabulary _ hmem
    apply hsingle rfl
  · rw [ofText_of_standsAlone h hmem]
    decide

/-- The raw tokens of a maximal lexeme are sound. -/
theorem Lexeme.Maximal.sound {l : Lexeme} {rest : Text} (h : l.Maximal rest) :
  ∀ r ∈ l.raws, r.Sound
  := by
  cases h with
  | blank _ => exact fun r hr => absurd hr List.not_mem_nil
  | @dots n _ _ =>
    intro r hr
    rw [raws] at hr
    split at hr
    · exact absurd hr List.not_mem_nil
    · rename_i hn
      obtain ⟨k, hk, rfl⟩ := List.mem_map.mp hr
      obtain ⟨hpos, hle⟩ := mem_dotChunks (by omega) hk
      exact .dots hpos hle
  | name hc ht _ =>
    rw [raws, List.forall_mem_singleton]
    apply sound_of_isName
    rw [isName, hc, Bool.true_and, List.all_eq_true]
    exact ht
  | decimal hd ht _ _ =>
    rw [raws, List.forall_mem_singleton]
    exact sound_of_isUnsignedNumber hd (isUnsignedNumber_of_decimal hd ht)
  | radix hlead ht _ =>
    rw [raws, List.forall_mem_singleton]
    exact sound_of_isUnsignedNumber (by decide) (isUnsignedNumber_of_radix hlead ht)
  | string hquote _ =>
    rw [raws, List.forall_mem_singleton]
    exact sound_string hquote _
  | single hc =>
    rw [raws, List.forall_mem_singleton]
    exact sound_single hc

namespace Raw.Sound

variable {r : Raw}

theorem text_ne_nil (h : r.Sound) :
  r.text ≠ []
  := by
  cases h with
  | identifier ht _ =>
    rintro rfl
    contradiction
  | number ht _ _ =>
    rintro rfl
    contradiction
  | string hkind =>
    rintro rfl
    contradiction
  | @dots n hpos _ =>
    rw [Ne, List.replicate_eq_nil_iff]
    omega
  | single _ _ => exact List.cons_ne_nil _ _

/-- Exactly the raw tokens with the shape of a number have the kind of a number. -/
theorem ofText_eq_number_iff (h : r.Sound) :
  Kind.ofText r.text = .number ↔ r.shape = .number
  := by
  cases h with
  | identifier _ hkind => exact iff_of_false (List.ne_of_not_mem_cons hkind) nofun
  | number _ _ hkind => exact iff_of_true hkind rfl
  | string hkind =>
    rw [hkind]
    exact iff_of_false nofun nofun
  | @dots n hpos hle =>
    have hdots : ∀ n < 5, ¬ isNumber (List.replicate n '.') := by decide
    rw [Kind.ofText_eq_number_iff]
    exact iff_of_false (hdots n (by omega)) nofun
  | single _ hkind =>
    refine iff_of_false (fun hnumber => ?_) nofun
    rw [hnumber] at hkind
    exact absurd hkind (by decide)

end Raw.Sound

/-- The raw tokens of a line are sound. -/
theorem Line.sound_of_mem_raws (line : Text) :
  ∀ r ∈ Line.raws line, r.Sound
  := by
  intro r hr
  obtain ⟨l, rest, hl, hraw⟩ := Line.exists_maximal_of_mem_raws hr
  apply hl.sound r hraw

theorem Line.ne_nil_of_mem_texts {line t : Text} (h : t ∈ (Line.raws line).map Raw.text) :
  t ≠ []
  := by
  obtain ⟨r, hr, rfl⟩ := List.mem_map.mp h
  apply (Line.sound_of_mem_raws line r hr).text_ne_nil

/-! ### Merged tokens -/

/-- The kind of a merged token agrees with the raw tokens it is made of. -/
structure KindAgrees (group : List Raw) : Prop where
  number_iff : Kind.ofText (group.flatMap Raw.text) = .number ↔ ∃ r ∈ group, r.shape = .number
  operator : 1 < group.length → (∀ r ∈ group, r.shape ≠ .number) →
    Kind.ofText (group.flatMap Raw.text) = .operator
  invalid_iff : Kind.ofText (group.flatMap Raw.text) = .invalid ↔
    group.flatMap Raw.text ∈ dotRuns ∨ ∃ c, group = [⟨.single, [c]⟩] ∧ [c] ∉ vocabulary

theorem ofText_of_mem_dotRuns :
  ∀ t ∈ dotRuns, Kind.ofText t = .invalid
  := by decide +kernel

theorem Raw.Sound.kindAgrees_alone {r : Raw} (h : r.Sound) :
  KindAgrees [r]
  := by
  constructor
  case number_iff =>
    rw [List.flatMap_singleton, h.ofText_eq_number_iff]
    simp
  case operator =>
    intro hlength
    exact absurd hlength (lt_irrefl 1)
  case invalid_iff =>
    rw [List.flatMap_singleton]
    constructor
    · intro hinvalid
      cases h with
      | identifier _ hkind =>
        rw [hinvalid] at hkind
        exact absurd (by decide) hkind
      | number _ _ hkind =>
        rw [hinvalid] at hkind
        contradiction
      | string hkind =>
        rw [hinvalid] at hkind
        contradiction
      | @dots n hpos hle =>
        have hdots : ∀ n < 5, 1 ≤ n → Kind.ofText (List.replicate n '.') = .invalid →
            List.replicate n '.' ∈ dotRuns := by decide +kernel
        exact .inl (hdots n (by omega) hpos hinvalid)
      | @single c hc hkind =>
        right
        refine ⟨c, rfl, fun hmem => ?_⟩
        have hword := (Kind.ofText_of_mem_vocabulary _ hmem).1
        rw [hinvalid] at hword
        contradiction
    · rintro (hruns | ⟨c, heq, hmem⟩)
      · exact ofText_of_mem_dotRuns _ hruns
      · obtain rfl := List.singleton_inj.mp heq
        obtain _ | _ | _ | _ | ⟨hc, -⟩ := h
        exact ofText_of_standsAlone hc hmem

/-- Two raw tokens that form a token of another kind than invalid are as the account of invalid
tokens says: they are neither dots nor one character. -/
theorem invalid_iff_of_pair {r s : Raw} (h : Kind.ofText ([r, s].flatMap Raw.text) ≠ .invalid) :
  Kind.ofText ([r, s].flatMap Raw.text) = .invalid ↔
    [r, s].flatMap Raw.text ∈ dotRuns ∨ ∃ c, [r, s] = [⟨.single, [c]⟩] ∧ [c] ∉ vocabulary
  := by
  refine iff_of_false h ?_
  rintro (hruns | ⟨c, heq, -⟩)
  · exact h (ofText_of_mem_dotRuns _ hruns)
  · exact absurd (congrArg List.length heq) (by simp)

theorem isNumber_cons_minus {t : Text} (h : isNumber t) (hsign : t.head? ≠ some '-') :
  isNumber ('-' :: t)
  := by
  unfold isNumber at h
  split at h
  · exact absurd rfl hsign
  · exact h

theorem kindAgrees_signed {r s : Raw} (hr : r.text = ['-']) (hs : s.Sound)
    (hnumber : isNumber s.text) (hsign : s.text.head? ≠ some '-') :
  KindAgrees [r, s]
  := by
  have htext : [r, s].flatMap Raw.text = '-' :: s.text := by
    simp [hr]
  have hkind : Kind.ofText ([r, s].flatMap Raw.text) = .number := by
    rw [htext, Kind.ofText_eq_number_iff]
    exact isNumber_cons_minus hnumber hsign
  have hshape : s.shape = .number := by
    rwa [← hs.ofText_eq_number_iff, Kind.ofText_eq_number_iff]
  have hmem : s ∈ [r, s] := List.mem_cons_of_mem r List.mem_cons_self
  constructor
  case number_iff => exact iff_of_true hkind ⟨s, hmem, hshape⟩
  case operator => exact fun _ hnone => absurd hshape (hnone s hmem)
  case invalid_iff =>
    apply invalid_iff_of_pair
    rw [hkind]
    decide

theorem kindAgrees_compound {r s : Raw} (hsound : r.Sound ∧ s.Sound) {c : Char}
    (hc : c ∈ compoundSigns) (hr : r.text = [c]) (hs : s.text = ['=']) :
  KindAgrees [r, s]
  := by
  have hsigns : ∀ c ∈ compoundSigns, Kind.ofText [c, '='] = .operator ∧ ¬ isNumber [c] :=
    forall_mem_of_all (by decide +kernel)
  have hequals : ¬ isNumber ['='] := by decide
  have htext : [r, s].flatMap Raw.text = [c, '='] := by
    simp [hr, hs]
  have hkind : Kind.ofText ([r, s].flatMap Raw.text) = .operator := by
    rw [htext]
    exact (hsigns c hc).1
  constructor
  case number_iff =>
    refine iff_of_false (by rw [hkind]; decide) ?_
    rintro ⟨x, hx, hshape⟩
    rw [List.mem_cons, List.mem_singleton] at hx
    obtain rfl | rfl := hx
    · rw [← hsound.1.ofText_eq_number_iff, Kind.ofText_eq_number_iff, hr] at hshape
      exact (hsigns c hc).2 hshape
    · rw [← hsound.2.ofText_eq_number_iff, Kind.ofText_eq_number_iff, hs] at hshape
      exact hequals hshape
  case operator => exact fun _ _ => hkind
  case invalid_iff =>
    apply invalid_iff_of_pair
    rw [hkind]
    decide

/-- The kind of a merged token agrees with the raw tokens it is made of. -/
theorem Grouped.kindAgrees {group : List Raw} (h : Grouped (group.map Raw.text))
    (hsound : ∀ r ∈ group, r.Sound) :
  KindAgrees group
  := by
  generalize htexts : group.map Raw.text = texts at h
  cases h with
  | alone t =>
    obtain ⟨r, rfl, rfl⟩ := List.map_eq_singleton_iff.mp htexts
    exact (hsound r List.mem_cons_self).kindAgrees_alone
  | signed hnumber hsign =>
    obtain ⟨r, rest, rfl, hr, hrest⟩ := List.map_eq_cons_iff.mp htexts
    obtain ⟨s, rfl, rfl⟩ := List.map_eq_singleton_iff.mp hrest
    rw [List.forall_mem_cons, List.forall_mem_singleton] at hsound
    exact kindAgrees_signed hr hsound.2 hnumber hsign
  | compound hc =>
    obtain ⟨r, rest, rfl, hr, hrest⟩ := List.map_eq_cons_iff.mp htexts
    obtain ⟨s, rfl, hs⟩ := List.map_eq_singleton_iff.mp hrest
    rw [List.forall_mem_cons, List.forall_mem_singleton] at hsound
    exact kindAgrees_compound hsound hc hr hs

/-- Groups of texts of raw tokens are texts of groups of raw tokens. -/
theorem exists_flatten_eq {ts : List Raw} {gs : List (List Text)}
    (h : gs.flatten = ts.map Raw.text) :
  ∃ groups : List (List Raw), groups.flatten = ts ∧ groups.map (List.map Raw.text) = gs
  := by
  induction gs generalizing ts with
  | nil =>
    rw [List.flatten_nil, eq_comm, List.map_eq_nil_iff] at h
    exact ⟨[], h.symm, rfl⟩
  | cons g gs ih =>
    rw [List.flatten_cons, eq_comm, List.map_eq_append_iff] at h
    obtain ⟨ts₁, ts₂, rfl, rfl, hrest⟩ := h
    obtain ⟨groups, rfl, rfl⟩ := ih hrest.symm
    exact ⟨ts₁ :: groups, rfl, rfl⟩

/-- Raw tokens look as their shapes say, and the kinds of raw and of merged tokens, which are
read off the text alone, agree with the shapes. -/
theorem Line.kinds_agree (line : Text) :
  (∀ r ∈ raws line, r.Sound)
    ∧ ∃ gs : List (List Raw), gs.flatten = raws line
      ∧ (gs.map fun group => group.flatMap Raw.text) = merged line
      ∧ ∀ group ∈ gs, KindAgrees group
  := by
  have hsound := sound_of_mem_raws line
  obtain ⟨gs, hflatten, hgroups⟩ :=
    exists_flatten_eq (flatten_groups none ((raws line).map Raw.text))
  refine ⟨hsound, gs, hflatten, ?_, ?_⟩
  · rw [merged, merge, ← hgroups, List.map_map]
    rfl
  · intro group hgroup
    have hmem : group.map Raw.text ∈ groups none ((raws line).map Raw.text) := by
      rw [← hgroups]
      exact List.mem_map_of_mem hgroup
    have hgrouped := grouped_of_mem_groups (isChain_raws line).of_cons
      (fun _ => ne_nil_of_mem_texts) _ hmem
    apply hgrouped.kindAgrees
    intro r hr
    apply hsound
    rw [← hflatten]
    exact List.mem_flatten.mpr ⟨group, hgroup, hr⟩

end CartTokens
