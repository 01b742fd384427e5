import CartTokens.Proofs.Comment

/-!
# Passages

Read from left to right, a text is a sequence of passages: block comments, openers that nothing
closes, and single characters.  `Passages t ps` says how the passages `ps` of a text `t` are
found.

* Every text has passages (`exists_passages`), and they are determined by it
  (`Passages.unique`).
* Putting a text in the place of the comments replaces those passages that are comments and
  leaves the others as they are (`Passages.replaceComments_eq`).

So taking out the comments of a text leaves its other passages
(`stripComments_eq_flatMap_kept`).
-/

namespace CartTokens

open Text

/-! ### The first occurrence of a mark -/

/-- After `inside` and before `rest` the mark stands for the first time. -/
def StandsFirst (mark inside rest : Text) : Prop :=
  ∀ inside' rest', inside ++ mark ++ rest = inside' ++ mark ++ rest' →
    inside.length ≤ inside'.length

theorem StandsFirst.unique {mark inside rest inside' rest' : Text}
    (h : StandsFirst mark inside rest) (h' : StandsFirst mark inside' rest')
    (heq : inside ++ mark ++ rest = inside' ++ mark ++ rest') :
  inside = inside' ∧ rest = rest'
  := by
  have hlength : inside.length = inside'.length :=
    Nat.le_antisymm (h inside' rest' heq) (h' inside rest heq.symm)
  rw [List.append_assoc, List.append_assoc] at heq
  obtain ⟨hinside, hrest⟩ := List.append_inj heq hlength
  exact ⟨hinside, List.append_cancel_left hrest⟩

/-- What follows the first occurrence of a mark is found if the mark occurs. -/
theorem afterFirst?_eq_none_iff {mark : Text} (hne : mark ≠ []) (t : Text) :
  afterFirst? mark t = none ↔ ¬ mark <:+: t
  := by
  induction t with
  | nil =>
    apply iff_of_true rfl
    rwa [List.infix_nil]
  | cons c t ih =>
    rw [List.infix_cons_iff, not_or, ← ih, afterFirst?]
    cases hafter : after? mark (c :: t) with
    | some rest =>
      apply iff_of_false (Option.some_ne_none rest)
      rintro ⟨hstart, -⟩
      apply hstart ⟨rest, ((after?_eq_some_iff _ _ _).mp hafter).symm⟩
    | none =>
      have hstart : ¬ mark <+: c :: t := by
        rintro ⟨rest, hrest⟩
        rw [(after?_eq_some_iff mark _ rest).mpr hrest.symm] at hafter
        contradiction
      exact (and_iff_right hstart).symm

theorem exists_standsFirst {mark t rest : Text} (h : afterFirst? mark t = some rest) :
  ∃ inside, t = inside ++ mark ++ rest ∧ StandsFirst mark inside rest
  := by
  induction t with
  | nil => contradiction
  | cons c t ih =>
    rw [afterFirst?] at h
    cases hafter : after? mark (c :: t) with
    | some rest' =>
      rw [hafter] at h
      obtain rfl := Option.some.inj h
      use [], (after?_eq_some_iff _ _ _).mp hafter
      intro inside' rest' _
      apply Nat.zero_le
    | none =>
      rw [hafter] at h
      obtain ⟨inside, rfl, hfirst⟩ := ih h
      use c :: inside, rfl
      intro inside' rest' heq
      cases inside' with
      | nil =>
        have hstart : after? mark (c :: (inside ++ mark ++ rest)) = some rest' :=
          (after?_eq_some_iff _ _ _).mpr heq
        rw [hafter] at hstart
        contradiction
      | cons d inside' =>
        obtain ⟨-, heq⟩ := List.cons.inj heq
        apply Nat.succ_le_succ
        apply hfirst inside' rest' heq

/-- What is found is what follows the first occurrence of the mark. -/
theorem standsFirst_iff {mark : Text} (hne : mark ≠ []) (inside rest : Text) :
  StandsFirst mark inside rest ↔ afterFirst? mark (inside ++ mark ++ rest) = some rest
  := by
  constructor
  · intro h
    cases hafter : afterFirst? mark (inside ++ mark ++ rest) with
    | none =>
      rw [afterFirst?_eq_none_iff hne] at hafter
      exact absurd ⟨inside, rest, rfl⟩ hafter
    | some rest' =>
      obtain ⟨inside', heq, hfirst⟩ := exists_standsFirst hafter
      rw [(h.unique hfirst heq).2]
  · intro hafter
    obtain ⟨inside', heq, hfirst⟩ := exists_standsFirst hafter
    rwa [List.append_cancel_right (List.append_cancel_right heq)]

/-! ### Passages of a text -/

/-- A part of a text that is taken out as a whole or stays as a whole. -/
inductive Passage where
  | comment (level : Nat) (inside : Text)
  | opener (level : Nat)
  | char (c : Char)
  deriving DecidableEq, Repr

namespace Passage

/-- The characters of a passage. -/
def text : Passage → Text
  | .comment level inside => commentOpener level ++ inside ++ commentCloser level
  | .opener level => commentOpener level
  | .char c => [c]

/-- The passage with `fill` in its place if it is a comment. -/
def filled (fill : Text) : Passage → Text
  | .comment _ _ => fill
  | .opener level => commentOpener level
  | .char c => [c]

/-- What is left of a passage when comments are taken out. -/
def kept : Passage → Text := filled []

end Passage

/-- The passages of a text, from left to right: where a comment opens and its closer follows,
everything up to the first such closer is a passage; where a comment opens and nothing closes it
the opener is; and where no comment opens the next character is. -/
inductive Passages : Text → List Passage → Prop where
  | nil : Passages [] []
  | comment {level : Nat} {inside rest : Text} {ps : List Passage}
      (hfirst : StandsFirst (commentCloser level) inside rest) (h : Passages rest ps) :
      Passages (commentOpener level ++ (inside ++ commentCloser level ++ rest))
        (.comment level inside :: ps)
  | opener {level : Nat} {rest : Text} {ps : List Passage}
      (hopen : ¬ commentCloser level <:+: rest) (h : Passages rest ps) :
      Passages (commentOpener level ++ rest) (.opener level :: ps)
  | char {c : Char} {rest : Text} {ps : List Passage}
      (hnone : ∀ level, ¬ commentOpener level <+: c :: rest) (h : Passages rest ps) :
      Passages (c :: rest) (.char c :: ps)

theorem commentCloser_ne_nil (level : Nat) :
  commentCloser level ≠ []
  := List.cons_ne_nil _ _

/-- The level of an opener and what follows it are determined by the text. -/
theorem commentOpener_append_inj {level level' : Nat} {s t : Text}
    (h : commentOpener level ++ s = commentOpener level' ++ t) :
  level = level' ∧ s = t
  := by
  have hfound := opener?_commentOpener_append level s
  rw [h, opener?_commentOpener_append] at hfound
  obtain ⟨rfl, rfl⟩ := Prod.mk.inj (Option.some.inj hfound)
  exact ⟨rfl, rfl⟩

/-- Every text has passages. -/
theorem exists_passages (t : Text) :
  ∃ ps, Passages t ps
  := by
  induction hn : t.length using Nat.strong_induction_on generalizing t with
  | _ n ih =>
    subst hn
    cases t with
    | nil => exact ⟨[], .nil⟩
    | cons c t =>
      cases hopen : opener? (c :: t) with
      | none =>
        obtain ⟨ps, hps⟩ := ih t.length (Nat.lt_succ_self _) t rfl
        use .char c :: ps
        apply Passages.char ((opener?_eq_none_iff _).mp hopen) hps
      | some found =>
        obtain ⟨level, body⟩ := found
        have hshort := length_of_opener? hopen
        rw [opener?_eq_some_iff] at hopen
        rw [hopen]
        cases hclose : afterFirst? (commentCloser level) body with
        | none =>
          obtain ⟨ps, hps⟩ := ih body.length hshort body rfl
          use .opener level :: ps
          apply Passages.opener _ hps
          rwa [← afterFirst?_eq_none_iff (commentCloser_ne_nil level)]
        | some rest =>
          have hrest := length_of_afterFirst? hclose
          obtain ⟨inside, rfl, hfirst⟩ := exists_standsFirst hclose
          obtain ⟨ps, hps⟩ := ih rest.length (Nat.lt_of_le_of_lt hrest hshort) rest rfl
          use .comment level inside :: ps
          apply Passages.comment hfirst hps

namespace Passages

variable {t : Text} {ps : List Passage}

/-- A character that begins no `--[` is a passage of its own. -/
theorem plain {c : Char} {rest : Text} (hmark : ¬ "--[".toList <+: c :: rest)
    (h : Passages rest ps) :
  Passages (c :: rest) (.char c :: ps)
  := .char (not_commentOpener_isPrefix hmark) h

/-- The passages of a text make up the text. -/
theorem flatMap_text (h : Passages t ps) :
  ps.flatMap Passage.text = t
  := by
  induction h with
  | nil => rfl
  | comment hfirst h ih =>
    rw [List.flatMap_cons, ih, Passage.text]
    simp
  | opener hopen h ih => rw [List.flatMap_cons, ih, Passage.text]
  | char hnone h ih => rw [List.flatMap_cons, ih, Passage.text, List.singleton_append]

/-! ### Reading the first passage -/

theorem of_nil (h : Passages [] ps) :
  ps = []
  := by
  generalize ht : [] = t at h
  cases h with
  | nil => rfl
  | comment hfirst h => contradiction
  | opener hopen h => contradiction
  | char hnone h => contradiction

theorem of_comment {level : Nat} {inside rest : Text}
    (hfirst : StandsFirst (commentCloser level) inside rest)
    (h : Passages (commentOpener level ++ (inside ++ commentCloser level ++ rest)) ps) :
  ∃ qs, ps = .comment level inside :: qs ∧ Passages rest qs
  := by
  generalize ht : commentOpener level ++ (inside ++ commentCloser level ++ rest) = t at h
  cases h with
  | nil => contradiction
  | comment hfirst' h =>
    obtain ⟨rfl, hbody⟩ := commentOpener_append_inj ht
    obtain ⟨rfl, rfl⟩ := hfirst.unique hfirst' hbody
    exact ⟨_, rfl, h⟩
  | opener hopen h =>
    obtain ⟨rfl, rfl⟩ := commentOpener_append_inj ht
    exact absurd ⟨inside, rest, rfl⟩ hopen
  | char hnone h => exact absurd ⟨_, ht⟩ (hnone level)

theorem of_opener {level : Nat} {rest : Text} (hopen : ¬ commentCloser level <:+: rest)
    (h : Passages (commentOpener level ++ rest) ps) :
  ∃ qs, ps = .opener level :: qs ∧ Passages rest qs
  := by
  generalize ht : commentOpener level ++ rest = t at h
  cases h with
  | nil => contradiction
  | @comment level' inside rest' _ hfirst h =>
    obtain ⟨rfl, rfl⟩ := commentOpener_append_inj ht
    exact absurd ⟨inside, rest', rfl⟩ hopen
  | opener hopen' h =>
    obtain ⟨rfl, rfl⟩ := commentOpener_append_inj ht
    exact ⟨_, rfl, h⟩
  | char hnone h => exact absurd ⟨_, ht⟩ (hnone level)

theorem of_char {c : Char} {rest : Text} (hnone : ∀ level, ¬ commentOpener level <+: c :: rest)
    (h : Passages (c :: rest) ps) :
  ∃ qs, ps = .char c :: qs ∧ Passages rest qs
  := by
  generalize ht : c :: rest = t at h
  cases h with
  | nil => contradiction
  | comment hfirst h => exact absurd ⟨_, ht.symm⟩ (hnone _)
  | opener hopen h => exact absurd ⟨_, ht.symm⟩ (hnone _)
  | char hnone' h =>
    obtain ⟨rfl, rfl⟩ := List.cons.inj ht
    exact ⟨_, rfl, h⟩

/-- A text has its passages in one way only. -/
theorem unique (h : Passages t ps) {qs : List Passage} (h' : Passages t qs) :
  qs = ps
  := by
  induction h generalizing qs with
  | nil => apply of_nil h'
  | comment hfirst h ih =>
    obtain ⟨qs, rfl, hqs⟩ := of_comment hfirst h'
    rw [ih hqs]
  | opener hopen h ih =>
    obtain ⟨qs, rfl, hqs⟩ := of_opener hopen h'
    rw [ih hqs]
  | char hnone h ih =>
    obtain ⟨qs, rfl, hqs⟩ := of_char hnone h'
    rw [ih hqs]

end Passages

/-! ### Replacing comments, passage by passage -/

section

variable (fill : Text)

/-- A character that begins no opener stays. -/
theorem replaceComments_cons {c : Char} {t : Text}
    (hnone : ∀ level, ¬ commentOpener level <+: c :: t) :
  replaceComments fill (c :: t) = c :: replaceComments fill t
  := by
  have hfind := findOpener_of_opener?_eq_none ((opener?_eq_none_iff _).mpr hnone)
  cases h : findOpener t with
  | none =>
    rw [h] at hfind
    rw [replaceComments_of_findOpener_eq_none fill h,
      replaceComments_of_findOpener_eq_none fill hfind]
  | some found =>
    obtain ⟨before, level, body⟩ := found
    rw [h] at hfind
    cases hclose : afterFirst? (commentCloser level) body with
    | some rest =>
      rw [replaceComments_of_closed fill h hclose, replaceComments_of_closed fill hfind hclose]
      rfl
    | none =>
      rw [replaceComments_of_open fill h hclose, replaceComments_of_open fill hfind hclose]
      rfl

theorem findOpener_commentOpener_append (level : Nat) (body : Text) :
  findOpener (commentOpener level ++ body) = some ([], level, body)
  := findOpener_of_opener? (opener?_commentOpener_append level body)

/-- Replacing comments replaces the passages that are comments. -/
theorem Passages.replaceComments_eq {t : Text} {ps : List Passage} (h : Passages t ps) :
  replaceComments fill t = ps.flatMap (Passage.filled fill)
  := by
  induction h with
  | nil => apply replaceComments_of_findOpener_eq_none fill rfl
  | @comment level inside rest ps hfirst h ih =>
    rw [replaceComments_of_closed fill (findOpener_commentOpener_append level _)
      ((standsFirst_iff (commentCloser_ne_nil level) _ _).mp hfirst), ih]
    rfl
  | @opener level rest ps hopen h ih =>
    rw [← afterFirst?_eq_none_iff (commentCloser_ne_nil level)] at hopen
    rw [replaceComments_of_open fill (findOpener_commentOpener_append level rest) hopen, ih]
    rfl
  | char hnone h ih =>
    rw [replaceComments_cons fill hnone, ih]
    rfl

end

/-- A text is in exactly one way a sequence of passages, and taking out its comments takes out
those that are comments and keeps the others. -/
theorem stripComments_eq_flatMap_kept (t : Text) :
  ∃ ps, Passages t ps ∧ (∀ qs, Passages t qs → qs = ps) ∧ ps.flatMap Passage.text = t
    ∧ stripComments t = ps.flatMap Passage.kept
  := by
  obtain ⟨ps, hps⟩ := exists_passages t
  use ps, hps
  refine ⟨fun qs hqs => ?_, ?_, ?_⟩
  · apply hps.unique hqs
  · apply hps.flatMap_text
  · apply hps.replaceComments_eq

end CartTokens
