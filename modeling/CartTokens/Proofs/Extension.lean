import CartTokens.CommandLine.Value
import CartTokens.Proofs.Path
import CartTokens.Settings
import Mathlib.Data.List.Forall2

/-!
# Extensions that are asked for

An extension on the command line may hold dots inside, blanks and letters of any script; the
extension of a file is what follows the last dot of its name, and holds no dot.  So an extension
that is asked for is met by the files that have it, in either case of its letters, exactly if it
holds no dot (`WalkOptions.accepts_iff_of_readExtension`).
-/

namespace CartTokens

/-! ### The case of letters -/

/-- The letters in their two cases. -/
def letters : List (Char × Char) :=
  "abcdefghijklmnopqrstuvwxyz".toList.zip "ABCDEFGHIJKLMNOPQRSTUVWXYZ".toList

/-- The characters are the same, or one letter in its two cases. -/
def SameLetter (c d : Char) : Prop :=
  c = d ∨ (c, d) ∈ letters ∨ (d, c) ∈ letters

/-- The texts differ in the case of letters only. -/
def SameLetters : Text → Text → Prop :=
  List.Forall₂ SameLetter

theorem toLower_eq_of_mem_letters {p : Char × Char} (h : p ∈ letters) :
  p.1.toLower = p.2.toLower
  := by
  have hall : letters.all fun p => p.1.toLower = p.2.toLower := by decide
  simpa using List.all_eq_true.mp hall p h

theorem SameLetter.toLower_eq {c d : Char} (h : SameLetter c d) :
  c.toLower = d.toLower
  := by
  rcases h with rfl | h | h
  · rfl
  · apply toLower_eq_of_mem_letters h
  · apply (toLower_eq_of_mem_letters h).symm

theorem SameLetters.lower_eq {s t : Text} (h : SameLetters s t) :
  Text.lower s = Text.lower t
  := by
  rw [Text.lower, Text.lower, ← List.forall₂_eq_eq_eq, List.forall₂_map_left_iff,
    List.forall₂_map_right_iff]
  apply h.imp
  intro c d hcd
  apply hcd.toLower_eq

/-- Lower case leaves a character as it is, or takes a letter to its other case. -/
theorem toLower_cases (c : Char) :
  c.toLower = c ∨ (c.toLower, c) ∈ letters
  := by
  have hcapitals : ∀ n < 26, ((Char.ofNat (n + 65)).toLower, Char.ofNat (n + 65)) ∈ letters := by
    decide
  by_cases hcapital : 65 ≤ c.toNat ∧ c.toNat ≤ 90
  · have hmem := hcapitals (c.toNat - 65) (by omega)
    rw [Nat.sub_add_cancel hcapital.1, Char.ofNat_toNat] at hmem
    exact .inr hmem
  · left
    delta Char.toLower
    apply dif_neg
    intro hupper
    apply hcapital
    exact ⟨UInt32.le_iff_toNat_le.mp hupper.1, UInt32.le_iff_toNat_le.mp hupper.2⟩

theorem toLower_eq_iff {x : Char} (hx : x.toNat < 'A'.toNat) (c : Char) :
  c.toLower = x ↔ c = x
  := by
  have hletters : letters.all fun p => 'A'.toNat ≤ p.1.toNat ∧ 'A'.toNat ≤ p.2.toNat := by decide
  rcases toLower_cases c with h | h
  · rw [h]
  · obtain ⟨hlower, hc⟩ : 'A'.toNat ≤ c.toLower.toNat ∧ 'A'.toNat ≤ c.toNat :=
      of_decide_eq_true (List.all_eq_true.mp hletters _ h)
    constructor <;> rintro rfl <;> omega

theorem mem_lower_iff {x : Char} (hx : x.toNat < 'A'.toNat) (t : Text) :
  x ∈ Text.lower t ↔ x ∈ t
  := by
  rw [Text.lower, List.mem_map]
  simp [toLower_eq_iff hx]

theorem SameLetters.mem_iff {s t : Text} (h : SameLetters s t) {x : Char}
    (hx : x.toNat < 'A'.toNat) :
  x ∈ s ↔ x ∈ t
  := by
  rw [← mem_lower_iff hx, h.lower_eq, mem_lower_iff hx]

/-! ### The extension of a name -/

namespace Path

/-- An extension holds no dot. -/
theorem dot_notMem_of_extensionOf? {name extension : Text}
    (h : extensionOf? name = some extension) :
  '.' ∉ extension
  := by
  rw [extensionOf?] at h
  split at h
  · cases h
    rw [List.mem_reverse]
    intro hdot
    exact absurd (List.mem_takeWhile_imp hdot) (by decide)
  · contradiction

/-- What follows the last dot of a name is its extension, if something precedes that dot. -/
theorem extensionOf?_append {stem extension : Text} (hstem : stem ≠ [])
    (hdot : '.' ∉ extension) :
  extensionOf? (stem ++ '.' :: extension) = some extension
  := by
  have hending : (stem ++ '.' :: extension).reverse.takeWhile (· != '.') = extension.reverse := by
    rw [List.reverse_append, List.reverse_cons, List.append_assoc, List.takeWhile_append_of_pos]
    · rw [List.singleton_append, List.takeWhile_cons_of_neg (by decide), List.append_nil]
    · intro c hc
      rw [bne_iff_ne]
      rintro rfl
      exact hdot (List.mem_reverse.mp hc)
  have hlength : 0 < stem.length := List.length_pos_of_ne_nil hstem
  rw [extensionOf?, hending, if_pos, List.reverse_reverse]
  rw [List.length_append, List.length_cons, List.length_reverse]
  omega

/-- A path without slashes, of more characters than two dots have, leads to the file of that
name. -/
theorem fileName?_of_length {name : Text} (hslash : '/' ∉ name) (hlength : 2 < name.length) :
  fileName? ⟨name⟩ = some name
  := by
  apply fileName?_of_parts
  · rw [Text.parts_eq_splitOn, List.splitOn_eq_singleton hslash]
  · apply List.ne_nil_of_length_pos (Nat.zero_lt_of_lt hlength)
  · rw [endsInDots_singleton]
    rintro (rfl | rfl) <;> exact absurd hlength (by decide)

theorem extension?_append {stem extension : Text} (hstem : stem ≠ []) (hne : extension ≠ [])
    (hslash : '/' ∉ stem) (hslash' : '/' ∉ extension) (hdot : '.' ∉ extension) :
  extension? ⟨stem ++ '.' :: extension⟩ = some extension
  := by
  have hlength := List.length_pos_of_ne_nil hstem
  have hlength' := List.length_pos_of_ne_nil hne
  rw [extension?, fileName?_of_length, Option.bind_some, extensionOf?_append hstem hdot]
  · rw [List.mem_append, List.mem_cons, not_or, not_or]
    use hslash, by decide
  · rw [List.length_append, List.length_cons]
    omega

end Path

theorem ne_nil_of_readExtension {t extension : Text} (h : readExtension t = .ok extension) :
  extension ≠ []
  := by
  rw [readExtension] at h
  split at h
  · contradiction
  · cases h
    apply List.cons_ne_nil

namespace WalkOptions

theorem accepts_iff {o : WalkOptions} {accepted : Text} (ho : o.extensions = [accepted])
    (p : Path) :
  o.accepts p ↔ ∃ extension, p.extension? = some extension
    ∧ Text.lower accepted = Text.lower extension
  := by
  rw [accepts, ho]
  cases p.extension? with
  | none => simp
  | some extension => simp

/-- Files that have an extension which is asked for are met in either case of its letters,
exactly if it holds no dot. -/
theorem accepts_iff_of_readExtension {t extension : Text} (h : readExtension t = .ok extension)
    (hslash : '/' ∉ extension) {o : WalkOptions} (ho : o.extensions = [extension])
    (stem : Text) (hne : stem ≠ []) (hstem : '/' ∉ stem) {spelling : Text}
    (hspelling : SameLetters extension spelling) :
  o.accepts ⟨stem ++ '.' :: spelling⟩ ↔ '.' ∉ extension
  := by
  rw [accepts_iff ho]
  constructor
  · rintro ⟨found, hfound, hlower⟩
    obtain ⟨name, -, hname⟩ := Option.bind_eq_some_iff.mp hfound
    rw [← mem_lower_iff (by decide), hlower, mem_lower_iff (by decide)]
    apply Path.dot_notMem_of_extensionOf? hname
  · intro hdot
    rw [hspelling.mem_iff (by decide)] at hslash hdot
    have hspelling_ne : spelling ≠ [] := by
      rintro rfl
      apply ne_nil_of_readExtension h (List.forall₂_nil_right_iff.mp hspelling)
    use spelling, Path.extension?_append hne hspelling_ne hstem hslash hdot, hspelling.lower_eq

/-- An extension with blanks and a letter beyond `z`, in the other case of its letters. -/
theorem accepts_iff_of_readExtension_capitals :
  readExtension " .. P 8é ".toList = .ok " p 8é".toList
    ∧ accepts { extensions := [" p 8é".toList] } ⟨"game".toList ++ '.' :: " P 8é".toList⟩
  := by
  have hread : readExtension " .. P 8é ".toList = .ok " p 8é".toList := by decide
  have hspelling : SameLetters " p 8é".toList " P 8é".toList := by
    refine .cons (.inl rfl) (.cons (.inr (.inl (by decide))) ?_)
    refine .cons (.inl rfl) (.cons (.inl rfl) (.cons (.inl rfl) .nil))
  use hread
  apply (accepts_iff_of_readExtension hread (by decide) rfl "game".toList (by decide) (by decide)
    hspelling).mpr (by decide)

/-- An extension with a dot inside is read, and not met by the files that have it. -/
theorem not_accepts_of_inner_dot :
  readExtension "p8.png".toList = .ok "p8.png".toList
    ∧ '/' ∉ "p8.png".toList
    ∧ ¬ accepts { extensions := ["p8.png".toList] } ⟨"game".toList ++ '.' :: "p8.png".toList⟩
  := by
  decide

end WalkOptions

end CartTokens
