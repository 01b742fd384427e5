import CartTokens.Json.Scalar
import CartTokens.Json.Value
import CartTokens.Proofs.Lexeme

/-!
# Strings and numbers of JSON, read back

A string is read back from its escaped characters (`JsonReader.readString_escaped`), and an
integer of 64 bits from its digits (`JsonReader.readNumber_ofNat`,
`JsonReader.readNumber_negative`), as long as what follows does not continue the number.
-/

namespace CartTokens

namespace JsonReader

open Text Lexeme Json

/-! ### Gaps -/

/-- The text holds nothing but blanks between the parts of a JSON text. -/
def Gaps (w : Text) : Prop :=
  ∀ c ∈ w, isGap c

theorem skipGaps_append {w : Text} (hw : Gaps w) {t : Text} (ht : StopsAt isGap t) :
  skipGaps (w ++ t) = t
  := dropWhile_append_of_stopsAt hw ht

/-! ### Strings -/

theorem hexValue?_hexDigit {n : Nat} (h : n < 16) :
  hexValue? (hexDigit n) = some n
  := by
  have hall : ∀ n < 16, hexValue? (hexDigit n) = some n := by decide
  exact hall n h

theorem utf8Size_hexDigit {n : Nat} (h : n < 16) :
  (hexDigit n).utf8Size = 1
  := by
  have hall : ∀ n < 16, (hexDigit n).utf8Size = 1 := by decide
  exact hall n h

/-- The code of a control character is read back from its four digits. -/
theorem fourDigits_hexDigit {n : Nat} (h : n < 32) (t : Text) :
  fourDigits ('0' :: '0' :: hexDigit (n / 16) :: hexDigit (n % 16) :: t) = .ok n
  := by
  have hhigh : n / 16 < 16 := by omega
  have hlow : n % 16 < 16 := by omega
  have hsize : ((('0' :: '0' :: hexDigit (n / 16) :: hexDigit (n % 16) :: t).take 4).map
      Char.utf8Size).sum = 4 := by
    have hzero : '0'.utf8Size = 1 := by decide
    simp [utf8Size_hexDigit hhigh, utf8Size_hexDigit hlow, hzero]
  have hvalue : ((0 * 16 + 0) * 16 + n / 16) * 16 + n % 16 = n := by omega
  rw [fourDigits, hsize, if_neg (by decide)]
  simp only [List.map_cons, hexValue?_hexDigit hhigh, hexValue?_hexDigit hlow]
  exact congrArg Except.ok hvalue

/-- The three ways a character is written in a string. -/
theorem escape_cases (c : Char) :
  (∃ d : Char, escape c = ['\\', d] ∧ d ≠ 'u' ∧ shortEscape? d = some c)
    ∨ c.toNat < 0x20
      ∧ escape c = '\\' :: 'u' :: '0' :: '0' :: [hexDigit (c.toNat / 16), hexDigit (c.toNat % 16)]
    ∨ c ≠ '\x22' ∧ c ≠ '\\' ∧ ¬ c.toNat < 0x20 ∧ escape c = [c]
  := by
  unfold escape
  iterate 7
    split
    · subst c
      exact .inl ⟨_, rfl, by decide, rfl⟩
  split
  · rename_i hcontrol
    exact .inr (.inl ⟨hcontrol, rfl⟩)
  · rename_i hquote hslash _ _ _ _ _ hplain
    exact .inr (.inr ⟨hquote, hslash, hplain, rfl⟩)

theorem readEscape_of_shortEscape? {c d : Char} (hd : d ≠ 'u') (h : shortEscape? d = some c)
    (t : Text) :
  readEscape (d :: t) = .ok (c, 1)
  := by
  unfold readEscape
  split
  · contradiction
  · rename_i heq
    exact absurd (List.cons.inj heq).1 hd
  · rename_i heq
    obtain ⟨rfl, -⟩ := List.cons.inj heq
    rw [h]

theorem readEscape_of_control {c : Char} (h : c.toNat < 0x20) (t : Text) :
  readEscape ('u' :: '0' :: '0' :: hexDigit (c.toNat / 16) :: hexDigit (c.toNat % 16) :: t)
    = .ok (c, 5)
  := by
  have hlow : ¬ isLowHalf c.toNat := by
    rw [isLowHalf, Bool.and_eq_true, decide_eq_true_eq]
    omega
  have hhigh : ¬ isHighHalf c.toNat := by
    rw [isHighHalf, Bool.and_eq_true, decide_eq_true_eq]
    omega
  simp only [readEscape, fourDigits_hexDigit h]
  rw [if_neg hlow, if_neg hhigh, Char.ofNat_toNat]

theorem readString_backslash {t : Text} {c : Char} {n : Nat} (h : readEscape t = .ok (c, n)) :
  readString ('\\' :: t)
    = (readString (t.drop n)).map fun (s, rest) => (c :: s, rest)
  := by
  rw [readString, if_neg (by decide), if_pos rfl, h]

/-- A character is read back as it is written. -/
theorem readString_escape (c : Char) (t : Text) :
  readString (escape c ++ t) = (readString t).map fun (s, rest) => (c :: s, rest)
  := by
  obtain ⟨d, hescape, hd, hc⟩ | ⟨hcontrol, hescape⟩ | ⟨hquote, hslash, hplain, hescape⟩ :=
    escape_cases c
  · rw [hescape]
    exact readString_backslash (readEscape_of_shortEscape? hd hc t)
  · rw [hescape]
    exact readString_backslash (readEscape_of_control hcontrol t)
  · rw [hescape, List.singleton_append, readString, if_neg hquote, if_neg hslash, if_neg hplain]

theorem readString_escaped (t rest : Text) :
  readString (t.flatMap escape ++ '\x22' :: rest) = .ok (t, rest)
  := by
  induction t with
  | nil =>
    rw [List.flatMap_nil, List.nil_append, readString, if_pos rfl]
  | cons c t ih =>
    rw [List.flatMap_cons, List.append_assoc, readString_escape, ih]
    rfl

/-! ### Numbers -/

/-- The character would continue a number. -/
def continuesNumber (c : Char) : Bool :=
  c.isDigit || c == '.' || c == 'e' || c == 'E'

theorem digitsValue_ofNat (n : Nat) :
  digitsValue (ofNat n) = n
  := by
  have hstep : (fun (n : Nat) (c : Char) => n * 10 + digitValue c)
      = fun n c => 10 * n + (c.toNat - '0'.toNat) := by
    funext n c
    rw [Nat.mul_comm, digitValue]
  rw [digitsValue, hstep]
  exact Nat.ofDigitChars_ten_toDigits

/-- The first digit of a positive number is not zero. -/
theorem head?_ofNat_ne {n : Nat} (h : 0 < n) :
  (ofNat n).head? ≠ some '0'
  := by
  induction n using Nat.strong_induction_on with
  | _ n ih =>
    by_cases hlt : n < 10
    · have hall : ∀ n < 10, 0 < n → [n.digitChar].head? ≠ some '0' := by decide
      rw [ofNat, Nat.toDigits_of_lt_base hlt]
      exact hall n hlt h
    · have hfront := ih (n / 10) (by omega) (by omega)
      rw [ofNat, Nat.toDigits_of_base_le (by decide) (by omega),
        List.head?_append_of_ne_nil _ Nat.toDigits_ne_nil]
      exact hfront

theorem readFraction_of_stopsAt (negative : Bool) (whole : Text) {rest : Text}
    (h : StopsAt continuesNumber rest) :
  readFraction negative whole rest
    = .ok ({ negative := negative, digits := digitsValue whole, exponent := 0, plain := true },
      rest)
  := by
  unfold readFraction
  split
  · exact absurd h (by rw [stopsAt_cons]; decide)
  · dsimp only [bind, Except.bind]
    split
    · exact absurd h (by rw [stopsAt_cons]; decide)
    · exact absurd h (by rw [stopsAt_cons]; decide)
    · rw [Option.getD_none, List.append_nil]
      rfl

theorem stopsAt_isDigit {rest : Text} (h : StopsAt continuesNumber rest) :
  StopsAt Char.isDigit rest
  := by
  intro c hc hdigit
  apply h c hc
  rw [continuesNumber, hdigit]
  rfl

/-- Reads the parts of a number after its sign. -/
def readMagnitude (negative : Bool) : Text → Except JsonFault (Written × Text)
  | [] => .error .truncated
  | c :: cs =>
    if c = '0' then
      if cs.head?.any Char.isDigit then .error .malformed
      else readFraction negative [c] cs
    else if c.isDigit then
      readFraction negative (c :: cs.takeWhile Char.isDigit) (cs.dropWhile Char.isDigit)
    else .error .malformed

theorem readWritten_minus (t : Text) :
  readWritten ('-' :: t) = readMagnitude true t
  := by
  cases t <;> rfl

theorem readWritten_of_ne {c : Char} (h : c ≠ '-') (t : Text) :
  readWritten (c :: t) = readMagnitude false (c :: t)
  := by
  simp [readWritten, readMagnitude, h]

/-- The digits of a number are read back. -/
theorem readMagnitude_ofNat (negative : Bool) (n : Nat) {rest : Text}
    (h : StopsAt continuesNumber rest) :
  readMagnitude negative (ofNat n ++ rest)
    = .ok ({ negative := negative, digits := n, exponent := 0, plain := true }, rest)
  := by
  have hstops := stopsAt_isDigit h
  obtain ⟨d, ds, hds⟩ := List.exists_cons_of_ne_nil (ofNat_ne_nil n)
  have hdigits : ∀ c ∈ ofNat n, c.isDigit := fun c hc => isDigit_of_mem_ofNat hc
  rw [hds, List.forall_mem_cons] at hdigits
  by_cases hzero : n = 0
  · subst hzero
    have hnot : ¬ rest.head?.any Char.isDigit := by
      rw [Option.any_eq_true]
      rintro ⟨c, hc, hdigit⟩
      exact hstops c hc hdigit
    rw [show ofNat 0 ++ rest = '0' :: rest from rfl, readMagnitude, if_pos rfl, if_neg hnot,
      readFraction_of_stopsAt _ _ h]
    rfl
  · have hd : d ≠ '0' := by
      rintro rfl
      exact head?_ofNat_ne (Nat.pos_of_ne_zero hzero) (by rw [hds]; rfl)
    rw [hds, List.cons_append, readMagnitude, if_neg hd, if_pos hdigits.1,
      takeWhile_append_of_stopsAt hdigits.2 hstops, dropWhile_append_of_stopsAt hdigits.2 hstops,
      readFraction_of_stopsAt _ _ h, ← hds, digitsValue_ofNat]

/-- No integer of 64 bits rounds to infinity. -/
theorem not_roundsToInfinity {n : Nat} (h : n ≤ maxUnsigned) :
  ¬ roundsToInfinity n 0
  := by
  have hbound : maxUnsigned < infinityThreshold := by decide +kernel
  have hnot : ¬ infinityThreshold ≤ n * 10 ^ (0 : Int).toNat := by
    rw [Int.toNat_zero, Nat.pow_zero, Nat.mul_one]
    omega
  rw [roundsToInfinity]
  split
  · decide
  · rw [if_neg (by decide), if_pos (Int.le_refl 0), decide_eq_true_eq]
    exact hnot

theorem readNumber_of_readWritten {t rest : Text} {w : Written}
    (h : readWritten t = .ok (w, rest)) (hsmall : ¬ roundsToInfinity w.digits w.exponent) :
  readNumber t = .ok (w.numeric, rest)
  := by
  unfold readNumber
  rw [h]
  exact if_neg hsmall

theorem exists_ofNat_eq_cons (n : Nat) :
  ∃ (d : Char) (ds : Text), ofNat n = d :: ds ∧ d.isDigit
  := by
  obtain ⟨d, ds, hds⟩ := List.exists_cons_of_ne_nil (ofNat_ne_nil n)
  exact ⟨d, ds, hds, isDigit_of_mem_ofNat (hds ▸ List.mem_cons_self)⟩

theorem readNumber_ofNat {n : Nat} (hn : n ≤ maxUnsigned) {rest : Text}
    (h : StopsAt continuesNumber rest) :
  readNumber (ofNat n ++ rest) = .ok (.unsigned n, rest)
  := by
  obtain ⟨d, ds, hds, hdigit⟩ := exists_ofNat_eq_cons n
  have hsign : d ≠ '-' := by
    rintro rfl
    contradiction
  have hread := readMagnitude_ofNat false n h
  rw [hds, List.cons_append, ← readWritten_of_ne hsign] at hread
  rw [hds, List.cons_append, readNumber_of_readWritten hread (not_roundsToInfinity hn)]
  simp [Written.numeric, hn]

theorem readNumber_negative {n : Nat} (hpos : 0 < n) (hn : n ≤ maxSigned + 1) {rest : Text}
    (h : StopsAt continuesNumber rest) :
  readNumber ('-' :: ofNat n ++ rest) = .ok (.negative n, rest)
  := by
  have hread := readMagnitude_ofNat true n h
  have hmax : maxSigned + 1 ≤ maxUnsigned := by decide
  rw [← readWritten_minus] at hread
  rw [List.cons_append, readNumber_of_readWritten hread (not_roundsToInfinity (hn.trans hmax))]
  simp [Written.numeric, hpos, hn]

end JsonReader

end CartTokens
