import CartTokens.Proofs.Rescan
import Mathlib.Data.List.Flatten

/-!
# Numbers

A number is read in two ways.  Cutting a line takes digits and dots from left to right, after a
look at the first characters for the mark of a radix; the kind of a token is decided by its
characters as a whole.  The two agree (`Line.raws_eq_number_iff`) except where two dots follow
the mark of a radix: `0x..8` has the shape of a number, but only one dot may stand between the
mark and the first digit where a line is cut (`Line.raws_radix_two_dots`).
-/

namespace CartTokens

/-! ### The shape of a number -/

theorem isNumber_of_isDigit {d : Char} (hd : isDigit d) (t : Text) :
  isNumber (d :: t) = isUnsignedNumber (d :: t)
  := by
  unfold isNumber
  split
  · rename_i heq
    obtain ⟨rfl, -⟩ := List.cons.inj heq
    contradiction
  · rfl

/-- A number is written in another radix, or with decimal digits alone. -/
theorem isUnsignedNumber_cases {t : Text} (h : isUnsignedNumber t) :
  (∃ mark rest, mark ∈ radixMarks ∧ t = '0' :: mark :: rest ∧ isDotted (isRadixDigit mark) rest)
    ∨ isDotted isDigit t
  := by
  unfold isUnsignedNumber at h
  split at h
  · rename_i mark rest
    split at h
    · rename_i hmark
      left
      use mark, rest
      refine ⟨?_, rfl, h⟩
      simpa [radixMarks, or_assoc] using hmark
    · exact .inr h
  · exact .inr h

theorem isDotted_iff (digit : Char → Bool) (t : Text) :
  isDotted digit t ↔ (∃ c ∈ t, digit c) ∧ ∀ c ∈ t, Lexeme.isNumberChar digit c
  := by
  rw [isDotted, Bool.and_eq_true, List.any_eq_true, List.all_eq_true]
  rfl

namespace Lexeme

/-- Digits with at most one dot before the first of them lead with a digit. -/
theorem leadsDigit_of_isDotted {mark : Char} {t : Text} (h : isDotted (isRadixDigit mark) t)
    (hdots : ¬ ['.', '.'] <+: t) :
  LeadsDigit mark t
  := by
  rw [isDotted_iff] at h
  obtain ⟨⟨d, hmem, hd⟩, hall⟩ := h
  have hdot : ∀ {c}, isRadixDigit mark c → c ≠ '.' :=
    fun hc => ne_dot_of_isNameChar (isNameChar_of_isRadixDigit hc)
  have hcases : ∀ c ∈ t, c = '.' ∨ isRadixDigit mark c := by
    intro c hc
    simpa [isNumberChar] using hall c hc
  cases t with
  | nil => exact absurd hmem List.not_mem_nil
  | cons c u =>
    obtain rfl | hc := hcases c List.mem_cons_self
    · cases u with
      | nil => exact absurd (List.mem_singleton.mp hmem) (hdot hd)
      | cons e v =>
        obtain rfl | he := hcases e (List.mem_cons_of_mem _ List.mem_cons_self)
        · exact absurd ⟨v, rfl⟩ hdots
        · exact ⟨e, v, he, .inr rfl⟩
    · exact ⟨c, u, hc, .inl rfl⟩

/-- Digits that lead with a digit do not begin with two dots. -/
theorem LeadsDigit.not_dots {mark : Char} {t : Text} (h : LeadsDigit mark t) :
  ¬ ['.', '.'] <+: t
  := by
  obtain ⟨d, u, hd, rfl | rfl⟩ := h
  · rintro ⟨rest, hrest⟩
    obtain ⟨rfl, -⟩ := List.cons.inj hrest
    exact ne_dot_of_isNameChar (isNameChar_of_isRadixDigit hd) rfl
  · rintro ⟨rest, hrest⟩
    obtain ⟨-, hrest⟩ := List.cons.inj hrest
    obtain ⟨rfl, -⟩ := List.cons.inj hrest
    exact ne_dot_of_isNameChar (isNameChar_of_isRadixDigit hd) rfl

theorem not_isNumberChar_of_mem_radixMarks :
  ∀ mark ∈ radixMarks, ¬ isNumberChar isDigit mark
  := forall_mem_of_all (by decide)

/-- The number lexemes are the texts with the shape of a number in which no two dots follow the
mark of a radix. -/
theorem maximal_number_iff {d : Char} (hd : isDigit d) (t : Text) :
  Maximal (.number (d :: t)) []
    ↔ isNumber (d :: t) ∧ ∀ mark ∈ radixMarks, ¬ ['0', mark, '.', '.'] <+: d :: t
  := by
  constructor
  · intro h
    rw [isNumber_of_isDigit hd]
    cases h with
    | decimal _ ht _ _ =>
      use isUnsignedNumber_of_decimal hd ht
      rintro mark hmark ⟨rest, hrest⟩
      obtain ⟨-, rfl⟩ := List.cons.inj hrest
      apply not_isNumberChar_of_mem_radixMarks mark hmark
      apply ht mark List.mem_cons_self
    | radix hlead ht _ =>
      use isUnsignedNumber_of_radix hlead ht
      intro mark hmark hstart
      rw [List.cons_prefix_cons, List.cons_prefix_cons] at hstart
      apply hlead.not_dots hstart.2.2
  · rintro ⟨hnumber, hdots⟩
    rw [isNumber_of_isDigit hd] at hnumber
    obtain ⟨mark, rest, hmark, heq, hdotted⟩ | hdotted := isUnsignedNumber_cases hnumber
    · obtain ⟨rfl, rfl⟩ := List.cons.inj heq
      have hlead : LeadsDigit mark rest := by
        apply leadsDigit_of_isDotted hdotted
        intro hstart
        apply hdots mark hmark
        apply List.cons_prefix_cons.mpr ⟨rfl, List.cons_prefix_cons.mpr ⟨rfl, hstart⟩⟩
      rw [isDotted_iff] at hdotted
      apply Maximal.radix hlead hdotted.2 (stopsAt_nil _)
    · rw [isDotted_iff, List.forall_mem_cons] at hdotted
      apply Maximal.decimal hd hdotted.2.2 (stopsAt_nil _)
      rintro ⟨mark, u, hu, heq⟩
      rw [List.append_nil] at heq
      obtain ⟨rfl, rfl⟩ := List.cons.inj heq
      apply not_isNumberChar_of_mem_radixMarks mark hu.mem_radixMarks
      apply hdotted.2.2 mark List.mem_cons_self

/-- The characters of a number are dots and characters that names may hold. -/
theorem Maximal.isNumberChar_of_number {t rest : Text} (h : Maximal (.number t) rest) :
  ∀ c ∈ t, isNumberChar isNameChar c
  := by
  have hname : ∀ {c}, isNameChar c → isNumberChar isNameChar c := by
    intro c hc
    rw [isNumberChar, hc, Bool.or_true]
  have hchar : ∀ {digit : Char → Bool}, (∀ d, digit d → isNameChar d) → ∀ {c},
      isNumberChar digit c → isNumberChar isNameChar c := by
    intro digit hdigit c hc
    rw [isNumberChar, Bool.or_eq_true] at hc ⊢
    apply hc.imp_right (hdigit c)
  cases h with
  | decimal hd ht _ _ =>
    rw [List.forall_mem_cons]
    use hname (isNameChar_of_isDigit hd)
    intro c hc
    apply hchar (fun _ => isNameChar_of_isDigit) (ht c hc)
  | @radix mark _ _ hlead ht _ =>
    rw [List.forall_mem_cons, List.forall_mem_cons]
    use by decide, hname (isNameChar_of_mem_radixMarks mark hlead.mem_radixMarks)
    intro c hc
    apply hchar (fun _ => isNameChar_of_isRadixDigit) (ht c hc)

end Lexeme

/-! ### Numbers in lines -/

theorem sublist_scan (t : Text) :
  ((scan t).flatMap Raw.text).Sublist t
  := by
  rw [scan, Lexeme.flatMap_text_flatMap_raws]
  nth_rewrite 2 [← Lexeme.flatMap_text_cut t]
  apply List.Sublist.flatMap
  apply List.filter_sublist

namespace Line

/-- A line is one number if it is cut into one number. -/
theorem raws_eq_number_iff_maximal {d : Char} (hd : isDigit d) (t : Text) :
  raws (d :: t) = [⟨.number, d :: t⟩] ↔ Lexeme.Maximal (.number (d :: t)) []
  := by
  constructor
  · intro h
    have hscan : scan (code (d :: t)) = [⟨.number, d :: t⟩] := by
      rcases raws_cases (d :: t) with hcode | ⟨u, -, hname⟩
      · rw [← hcode, h]
      · rw [hname] at h
        have hshape := congrArg Raw.shape (List.singleton_inj.mp h)
        contradiction
    -- the line holds no more than its code, and its code holds the number
    have hcode : code (d :: t) = d :: t := by
      apply List.Sublist.antisymm (sublist_code _)
      have hsub := sublist_scan (code (d :: t))
      rwa [hscan, List.flatMap_singleton] at hsub
    rw [hcode, scan, Lexeme.cut, Lexeme.first_of_isDigit hd, List.flatMap_cons] at hscan
    have hnumber : (Lexeme.takeNumber d t).1 = d :: t := by
      have hhead := (List.cons.inj hscan).1
      exact congrArg Raw.text hhead
    have hmax := Lexeme.maximal_takeNumber hd t
    rw [hnumber] at hmax
    apply hmax.at_end
  · intro h
    have hcode : IsCode (d :: t) := isCode_of_forall (List.cons_ne_nil d t) h.isNumberChar_of_number
    rw [hcode.raws_eq, scan]
    have hcut := h.cut_text
    rw [Lexeme.text] at hcut
    rw [hcut]
    rfl

/-- A line that begins with a digit is one number as a whole exactly if it has the shape of a
number and no two dots follow the mark of a radix. -/
theorem raws_eq_number_iff {d : Char} (hd : isDigit d) (t : Text) :
  raws (d :: t) = [⟨.number, d :: t⟩]
    ↔ isNumber (d :: t) ∧ ∀ mark ∈ radixMarks, ¬ ['0', mark, '.', '.'] <+: d :: t
  := by
  rw [raws_eq_number_iff_maximal hd, Lexeme.maximal_number_iff hd]

theorem raws_eq_number_iff_fraction :
  isDigit '0'
    ∧ (raws "0x.8.".toList = [⟨.number, "0x.8.".toList⟩]
      ↔ isNumber "0x.8.".toList
        ∧ ∀ mark ∈ radixMarks, ¬ ['0', mark, '.', '.'] <+: "0x.8.".toList)
  := ⟨by decide, raws_eq_number_iff (by decide) _⟩

/-- Two dots after the mark of a radix: the text has the shape of a number, but is cut apart. -/
theorem raws_radix_two_dots :
  isDigit '0'
    ∧ ¬ (raws "0x..8".toList = [⟨.number, "0x..8".toList⟩] ↔ isNumber "0x..8".toList)
  := ⟨by decide, by decide +kernel⟩

end Line

end CartTokens
