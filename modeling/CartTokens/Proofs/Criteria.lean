import CartTokens.Order
import CartTokens.Proofs.Extension
import CartTokens.Proofs.Vocabulary

/-!
# Reading criteria

A list of criteria is read from the parts between its commas that are not blank.  A part has a
key, in any case of its letters, before its first colon, and is descending exactly if `desc` or
`DESC` follows it; white space around the two does not matter.  If every part has a key, the
criteria are those of the parts in their order, and otherwise the first part without one is
reported (`SortSpec.read_exact`).
-/

namespace CartTokens

open Text

/-! ### Reading one after the other -/

section

variable {α β ε : Type} {e : ε}

theorem bind_eq_ok_iff {x : Except ε α} {g : α → Except ε β} {b : β} :
  x >>= g = .ok b ↔ ∃ a, x = .ok a ∧ g a = .ok b
  := by
  cases x <;> simp [bind, Except.bind]

theorem bind_eq_error_iff {x : Except ε α} {g : α → Except ε β} :
  x >>= g = .error e ↔ x = .error e ∨ ∃ a, x = .ok a ∧ g a = .error e
  := by
  cases x <;> simp [bind, Except.bind]

variable {f : α → Except ε β} {xs : List α}

/-- A list is read as what its members are read as. -/
theorem mapM_eq_ok_iff {ys : List β} :
  xs.mapM f = .ok ys ↔ List.Forall₂ (fun x y => f x = .ok y) xs ys
  := by
  induction xs generalizing ys with
  | nil =>
    rw [List.mapM_nil, List.forall₂_nil_left_iff]
    constructor
    · rintro ⟨⟩
      rfl
    · rintro rfl
      rfl
  | cons x xs ih =>
    simp only [List.mapM_cons, bind_eq_ok_iff, ih, List.forall₂_cons_left_iff]
    constructor
    · rintro ⟨y, hy, ys', hys', heq⟩
      cases heq
      exact ⟨y, ys', hy, hys', rfl⟩
    · rintro ⟨y, ys', hy, hys', rfl⟩
      exact ⟨y, hy, ys', hys', rfl⟩

/-- The first member that cannot be read is reported. -/
theorem mapM_eq_error_iff :
  xs.mapM f = .error e ↔ ∃ before x after, xs = before ++ x :: after
    ∧ (∀ y ∈ before, ∃ b, f y = .ok b) ∧ f x = .error e
  := by
  induction xs with
  | nil =>
    rw [List.mapM_nil]
    apply iff_of_false
    · rintro ⟨⟩
    · rintro ⟨before, x, after, heq, -⟩
      simp at heq
  | cons x xs ih =>
    simp only [List.mapM_cons, bind_eq_error_iff]
    constructor
    · rintro (hx | ⟨b, hb, hrest | ⟨bs, -, heq⟩⟩)
      · exact ⟨[], x, xs, rfl, by simp, hx⟩
      · obtain ⟨before, y, after, rfl, hbefore, hy⟩ := ih.mp hrest
        use x :: before, y, after, rfl
        rw [List.forall_mem_cons]
        exact ⟨⟨⟨b, hb⟩, hbefore⟩, hy⟩
      · cases heq
    · rintro ⟨before, y, after, heq, hbefore, hy⟩
      cases before with
      | nil =>
        obtain ⟨rfl, rfl⟩ := List.cons.inj heq
        exact .inl hy
      | cons z before =>
        obtain ⟨rfl, rfl⟩ := List.cons.inj heq
        rw [List.forall_mem_cons] at hbefore
        obtain ⟨⟨b, hb⟩, hbefore⟩ := hbefore
        exact .inr ⟨b, hb, .inl (ih.mpr ⟨before, y, after, rfl, hbefore, hy⟩)⟩

end

theorem Text.notMem_of_mem_parts {sep : Char} {t part : Text} (h : part ∈ parts sep t) :
  sep ∉ part
  := by
  induction t generalizing part with
  | nil =>
    rw [List.mem_singleton.mp h]
    exact List.not_mem_nil
  | cons c t ih =>
    by_cases hc : c = sep
    · rw [parts, if_pos hc, List.mem_cons] at h
      obtain rfl | h := h
      · exact List.not_mem_nil
      · apply ih h
    · obtain ⟨first, rest, hparts, hcons⟩ := parts_cons_of_ne hc t
      rw [hparts] at ih
      rw [hcons, List.mem_cons] at h
      obtain rfl | h := h
      · rw [List.mem_cons, not_or]
        exact ⟨Ne.symm hc, ih List.mem_cons_self⟩
      · apply ih (List.mem_cons_of_mem first h)

/-! ### Words for keys -/

theorem sameLetters_lower (t : Text) :
  SameLetters (lower t) t
  := by
  rw [SameLetters, lower, List.forall₂_map_left_iff, List.forall₂_same]
  intro c _
  rcases toLower_cases c with h | h
  · exact .inl h
  · exact .inr (.inl h)

namespace SortKey

/-- The words for a key. -/
def words : SortKey → List Text
  | .name => ["name".toList]
  | .tokens => ["tokens".toList, "count".toList]

/-- The word stands for the key, in any case of its letters. -/
def Spelled (key : SortKey) (word : Text) : Prop :=
  ∃ w ∈ key.words, SameLetters w word

theorem spelled_iff (key : SortKey) (word : Text) :
  key.Spelled word ↔ lower word ∈ key.words
  := by
  have hlower : ∀ w ∈ key.words, lower w = w := by
    cases key with
    | name => decide
    | tokens => decide
  constructor
  · rintro ⟨w, hw, hsame⟩
    rwa [← hsame.lower_eq, hlower w hw]
  · intro h
    exact ⟨lower word, h, sameLetters_lower word⟩

theorem Spelled.unique {key key' : SortKey} {word : Text} (h : key.Spelled word)
    (h' : key'.Spelled word) :
  key = key'
  := by
  have hapart : ∀ w ∈ words .name, w ∉ words .tokens := by decide
  rw [spelled_iff] at h h'
  cases key with
  | name =>
    cases key' with
    | name => rfl
    | tokens => exact absurd h' (hapart _ h)
  | tokens =>
    cases key' with
    | name => exact absurd h (hapart _ h')
    | tokens => rfl

/-- The words for keys are letters. -/
theorem Spelled.forall_isLetter {key : SortKey} {word : Text} (h : key.Spelled word) :
  ∀ c ∈ word, isLetter c
  := by
  have hwords : (words key).all fun w => w.all isLetter := by
    cases key with
    | name => decide
    | tokens => decide
  have hletters : letters.all fun p => isLetter p.2 := by decide
  intro c hc
  rw [spelled_iff] at h
  rcases toLower_cases c with hlower | hlower
  · have hmem : c ∈ lower word := by
      rw [← hlower]
      apply List.mem_map_of_mem hc
    apply List.all_eq_true.mp (List.all_eq_true.mp hwords _ h) c hmem
  · apply List.all_eq_true.mp hletters _ hlower

theorem Spelled.trim_eq {key : SortKey} {word : Text} (h : key.Spelled word) :
  trim word = word
  := by
  apply trim_eq_self
  intro c hc hspace
  have hname := isNameChar_of_isNameStart (isNameStart_of_isLetter (h.forall_isLetter c hc))
  exact not_isBlank_of_isNameChar hname (isBlank_of_isSpace hspace)

end SortKey

namespace SortSpec

/-- A word is read as the key it stands for, or reported in lower case. -/
theorem readKey_cases (word : Text) :
  (∃ key : SortKey, key.Spelled word ∧ readKey word = .ok key)
    ∨ (¬ ∃ key : SortKey, key.Spelled word) ∧ readKey word = .error ⟨lower word⟩
  := by
  simp only [SortKey.spelled_iff]
  rw [readKey]
  split
  · rename_i hname
    exact .inl ⟨.name, List.mem_singleton.mpr hname, rfl⟩
  rename_i hname
  split
  · rename_i htokens
    rw [Bool.or_eq_true, decide_eq_true_eq, decide_eq_true_eq, ← List.mem_pair] at htokens
    exact .inl ⟨.tokens, htokens, rfl⟩
  · rename_i htokens
    rw [Bool.or_eq_true, decide_eq_true_eq, decide_eq_true_eq, ← List.mem_pair] at htokens
    refine .inr ⟨?_, rfl⟩
    rintro ⟨key, hkey⟩
    cases key with
    | name => exact hname (List.mem_singleton.mp hkey)
    | tokens => exact htokens hkey

theorem readKey_eq_ok_iff (word : Text) (key : SortKey) :
  readKey word = .ok key ↔ key.Spelled word
  := by
  obtain ⟨key', hkey', heq⟩ | ⟨hnone, heq⟩ := readKey_cases word
  · rw [heq, Except.ok.injEq]
    constructor
    · rintro rfl
      exact hkey'
    · exact hkey'.unique
  · rw [heq]
    apply iff_of_false (by simp)
    exact fun hkey => hnone ⟨key, hkey⟩

theorem readKey_eq_error_iff (word : Text) (u : UnknownKey) :
  readKey word = .error u ↔ (¬ ∃ key : SortKey, key.Spelled word) ∧ u = ⟨lower word⟩
  := by
  obtain ⟨key, hkey, heq⟩ | ⟨hnone, heq⟩ := readKey_cases word
  · rw [heq]
    apply iff_of_false (by simp)
    exact fun hnone => hnone.1 ⟨key, hkey⟩
  · rw [heq, Except.error.injEq, eq_comm, and_iff_right hnone]

/-! ### Words between white space -/

/-- The text is the word between white space. -/
def Padded (word t : Text) : Prop :=
  ∃ before after, isBlankLine before ∧ isBlankLine after ∧ t = before ++ word ++ after

theorem padded_trim (t : Text) :
  Padded (trim t) t
  := exists_eq_append_trim t

section

variable {word t : Text} (h : Padded word t)

include h

theorem Padded.trim_eq :
  trim t = trim word
  := by
  obtain ⟨before, after, hbefore, hafter, rfl⟩ := h
  rw [trim_append_blank _ hafter, trim_blank_append hbefore]

theorem Padded.notMem {c : Char} (hspace : ¬ isSpace c) (hword : c ∉ word) :
  c ∉ t
  := by
  obtain ⟨before, after, hbefore, hafter, rfl⟩ := h
  rw [isBlankLine_iff] at hbefore hafter
  rw [List.mem_append, List.mem_append, not_or, not_or]
  exact ⟨⟨fun hc => hspace (hbefore c hc), hword⟩, fun hc => hspace (hafter c hc)⟩

end

/-! ### The words of a part -/

/-- The word for the key of a part: what stands before the first colon. -/
def keyWord (part : Text) : Text :=
  trim (part.takeWhile (· != ':'))

/-- The word for the direction of a part: what follows the first colon, nothing if there is none. -/
def directionWord (part : Text) : Text :=
  trim ((part.dropWhile (· != ':')).drop 1)

theorem forall_ne_colon {t : Text} (h : ':' ∉ t) :
  ∀ c ∈ t, c != ':'
  := by
  intro c hc
  rw [bne_iff_ne]
  rintro rfl
  exact h hc

theorem words_of_notMem {part : Text} (h : ':' ∉ part) :
  keyWord part = trim part ∧ directionWord part = []
  := by
  rw [keyWord, directionWord, List.takeWhile_eq_self_iff.mpr (forall_ne_colon h),
    List.dropWhile_eq_nil_iff.mpr (forall_ne_colon h)]
  exact ⟨rfl, rfl⟩

theorem words_append_colon {t : Text} (h : ':' ∉ t) (u : Text) :
  keyWord (t ++ ':' :: u) = trim t ∧ directionWord (t ++ ':' :: u) = trim u
  := by
  rw [keyWord, directionWord, List.takeWhile_append_of_pos (forall_ne_colon h),
    List.dropWhile_append_of_pos (forall_ne_colon h), List.takeWhile_cons_of_neg (by decide),
    List.dropWhile_cons_of_neg (by decide), List.append_nil]
  exact ⟨rfl, rfl⟩

/-- White space around a part has no part in its words. -/
theorem Padded.words_eq {part t : Text} (h : Padded part t) :
  keyWord t = keyWord part ∧ directionWord t = directionWord part
  := by
  by_cases hcolon : ':' ∈ part
  · obtain ⟨key, direction, rfl, hkey⟩ := List.eq_append_cons_of_mem hcolon
    obtain ⟨before, after, hbefore, hafter, rfl⟩ := h
    have hlonger : ':' ∉ before ++ key := by
      have hpadded : Padded key (before ++ key) :=
        ⟨before, [], hbefore, rfl, (List.append_nil _).symm⟩
      apply hpadded.notMem (by decide) hkey
    have heq : before ++ (key ++ ':' :: direction) ++ after
        = before ++ key ++ ':' :: (direction ++ after) := by simp
    obtain ⟨hkeyWord, hdirectionWord⟩ := words_append_colon hkey direction
    obtain ⟨hkeyWord', hdirectionWord'⟩ := words_append_colon hlonger (direction ++ after)
    rw [heq, hkeyWord, hdirectionWord, hkeyWord', hdirectionWord', trim_blank_append hbefore,
      trim_append_blank _ hafter]
    exact ⟨rfl, rfl⟩
  · obtain ⟨hkeyWord, hdirectionWord⟩ := words_of_notMem hcolon
    obtain ⟨hkeyWord', hdirectionWord'⟩ := words_of_notMem (h.notMem (by decide) hcolon)
    rw [hkeyWord, hdirectionWord, hkeyWord', hdirectionWord', h.trim_eq]
    exact ⟨rfl, rfl⟩

/-! ### Reading a part -/

/-- The words for a descending direction. -/
def descendingWords : List Text := ["desc", "DESC"].map String.toList

/-- The part has a word for the key of the criterion, and its direction. -/
@[mk_iff]
structure Describes (part : Text) (c : Criterion) : Prop where
  key : c.key.Spelled (keyWord part)
  direction : c.descending ↔ directionWord part ∈ descendingWords

/-- The part has a word for a key. -/
def HasKey (part : Text) : Prop :=
  ∃ key : SortKey, key.Spelled (keyWord part)

theorem isDescending_iff (word : Text) :
  isDescending word ↔ word ∈ descendingWords
  := by
  simp [isDescending, descendingWords]

theorem readCriterion_of_trim_eq {part : Text} (h : trim part = part) :
  readCriterion part
    = (readKey (keyWord part)).map (⟨·, isDescending (directionWord part)⟩)
  := by
  rw [readCriterion, keyWord, directionWord]
  cases hdrop : part.dropWhile (· != ':') with
  | nil =>
    have htake : part.takeWhile (· != ':') = part :=
      List.takeWhile_eq_self_iff.mpr (List.dropWhile_eq_nil_iff.mp hdrop)
    rw [htake, h]
    rfl
  | cons c direction => rfl

theorem readCriterion_trim (part : Text) :
  readCriterion (trim part)
    = (readKey (keyWord part)).map (⟨·, isDescending (directionWord part)⟩)
  := by
  obtain ⟨hkey, hdirection⟩ := (padded_trim part).words_eq
  rw [readCriterion_of_trim_eq (trim_trim part), hkey, hdirection]

theorem readCriterion_eq_ok_iff (part : Text) (c : Criterion) :
  readCriterion (trim part) = .ok c ↔ Describes part c
  := by
  rw [readCriterion_trim]
  cases hread : readKey (keyWord part) with
  | ok key =>
    rw [readKey_eq_ok_iff] at hread
    rw [Except.map, Except.ok.injEq]
    constructor
    · rintro rfl
      exact ⟨hread, isDescending_iff _⟩
    · intro h
      obtain ⟨key', descending⟩ := c
      obtain rfl : key = key' := hread.unique h.key
      rw [Criterion.mk.injEq, Bool.eq_iff_iff, isDescending_iff, ← h.direction]
      exact ⟨rfl, Iff.rfl⟩
  | error u =>
    rw [readKey_eq_error_iff] at hread
    apply iff_of_false (by simp [Except.map])
    exact fun h => hread.1 ⟨c.key, h.key⟩

theorem readCriterion_eq_error_iff (part : Text) (u : UnknownKey) :
  readCriterion (trim part) = .error u
    ↔ ¬ HasKey part ∧ u = ⟨lower (keyWord part)⟩
  := by
  rw [readCriterion_trim, HasKey, ← readKey_eq_error_iff]
  cases readKey (keyWord part) with
  | ok key => simp [Except.map]
  | error u => rw [Except.map, Except.error.injEq, Except.error.injEq]

/-! ### Lists of parts -/

/-- The parts between commas that are not blank. -/
def filledParts (t : Text) : List Text :=
  (parts ',' t).filter fun part => !isBlankLine part

theorem writtenParts_eq (t : Text) :
  writtenParts t = (filledParts t).map trim
  := by
  rw [writtenParts, filledParts, List.filter_map]
  simp only [Function.comp_def, isEmpty_trim]

theorem read_eq (t : Text) :
  read t = (filledParts t).mapM (readCriterion ∘ trim)
  := by
  rw [read, writtenParts_eq, List.mapM_map]

theorem exists_readCriterion_iff (part : Text) :
  (∃ c, readCriterion (trim part) = .ok c) ↔ HasKey part
  := by
  simp only [readCriterion_eq_ok_iff]
  constructor
  · rintro ⟨c, hc⟩
    exact ⟨c.key, hc.key⟩
  · rintro ⟨key, hkey⟩
    exact ⟨⟨key, isDescending (directionWord part)⟩, hkey, isDescending_iff _⟩

theorem read_eq_ok_iff (t : Text) (spec : SortSpec) :
  read t = .ok spec ↔ List.Forall₂ Describes (filledParts t) spec
  := by
  rw [read_eq, mapM_eq_ok_iff]
  simp only [Function.comp_apply, readCriterion_eq_ok_iff]

/-- The first part without a key is reported. -/
theorem read_eq_error_iff (t : Text) (u : UnknownKey) :
  read t = .error u ↔ ∃ before part after, filledParts t = before ++ part :: after
    ∧ (∀ p ∈ before, HasKey p) ∧ ¬ HasKey part ∧ u = ⟨lower (keyWord part)⟩
  := by
  rw [read_eq, mapM_eq_error_iff]
  simp only [Function.comp_apply, exists_readCriterion_iff, readCriterion_eq_error_iff]

theorem exists_read_iff (t : Text) :
  (∃ spec, read t = .ok spec) ↔ ∀ part ∈ filledParts t, HasKey part
  := by
  cases hread : read t with
  | ok spec =>
    rw [read_eq_ok_iff] at hread
    have hkeys : List.Forall₂ (fun p c => HasKey p ∧ Describes p c) (filledParts t) spec :=
      hread.imp fun _ c hc => ⟨⟨c.key, hc.key⟩, hc⟩
    rw [List.forall₂_and_left] at hkeys
    exact iff_of_true ⟨spec, rfl⟩ hkeys.1
  | error u =>
    obtain ⟨before, part, after, hparts, -, hnone, -⟩ := (read_eq_error_iff t u).mp hread
    apply iff_of_false (by simp)
    rw [hparts]
    intro hkeys
    apply hnone (hkeys part (by simp))

theorem UnknownKey.message_eq_iff (u : UnknownKey) (word : Text) :
  u.message = "Unknown sort key: ".toList ++ word ↔ u = ⟨word⟩
  := by
  obtain ⟨word'⟩ := u
  constructor
  · intro h
    have hword : word' = word := List.append_cancel_left h
    rw [hword]
  · rintro ⟨⟩
    rfl

/-! ### Printed criteria -/

/-- A part in print: a word for the key, then possibly a colon and a direction, with white space
around both.  The words for a descending direction are the only ones that make it so. -/
inductive Printed : Text → Criterion → Prop
  | bare {key : SortKey} {word t : Text} (hword : key.Spelled word) (ht : Padded word t) :
      Printed t ⟨key, false⟩
  | descending {key : SortKey} {word t direction u : Text} (hword : key.Spelled word)
      (ht : Padded word t) (hdirection : direction ∈ descendingWords) (hu : Padded direction u) :
      Printed (t ++ ':' :: u) ⟨key, true⟩
  | ascending {key : SortKey} {word t u : Text} (hword : key.Spelled word) (ht : Padded word t)
      (hu : trim u ∉ descendingWords) (hcomma : ',' ∉ u) :
      Printed (t ++ ':' :: u) ⟨key, false⟩

theorem describes_iff_of_notMem {part : Text} (h : ':' ∉ part) (c : Criterion) :
  Describes part c ↔ c.key.Spelled (trim part) ∧ c.descending = false
  := by
  obtain ⟨hkeyWord, hdirectionWord⟩ := words_of_notMem h
  have hnone : [] ∉ descendingWords := by decide
  rw [describes_iff, hkeyWord, hdirectionWord, iff_false_right hnone, Bool.not_eq_true]

theorem describes_append_colon_iff {t : Text} (h : ':' ∉ t) (u : Text) (c : Criterion) :
  Describes (t ++ ':' :: u) c
    ↔ c.key.Spelled (trim t) ∧ (c.descending ↔ trim u ∈ descendingWords)
  := by
  obtain ⟨hkeyWord, hdirectionWord⟩ := words_append_colon h u
  rw [describes_iff, hkeyWord, hdirectionWord]

theorem comma_notMem_append_colon_iff (t u : Text) :
  ',' ∉ t ++ ':' :: u ↔ ',' ∉ t ∧ ',' ∉ u
  := by
  simp

/-- A word for a key between white space holds neither of the separators. -/
theorem Padded.of_spelled {key : SortKey} {word t : Text} (h : Padded word t)
    (hword : key.Spelled word) :
  ':' ∉ t ∧ ',' ∉ t ∧ key.Spelled (trim t)
  := by
  have hnotMem : ∀ c, ¬ isSpace c → ¬ isLetter c → c ∉ t := by
    intro c hspace hletter
    apply h.notMem hspace
    exact fun hc => hletter (hword.forall_isLetter c hc)
  rw [h.trim_eq, hword.trim_eq]
  exact ⟨hnotMem ':' (by decide) (by decide), hnotMem ',' (by decide) (by decide), hword⟩

/-- A part in print describes its criterion. -/
theorem Printed.describes {part : Text} {c : Criterion} (h : Printed part c) :
  ',' ∉ part ∧ Describes part c
  := by
  cases h with
  | bare hword ht =>
    obtain ⟨hcolon, hcomma, hkey⟩ := ht.of_spelled hword
    rw [describes_iff_of_notMem hcolon]
    exact ⟨hcomma, hkey, rfl⟩
  | @descending _ _ _ direction _ hword ht hdirection hu =>
    have hwords : ∀ w ∈ descendingWords, ',' ∉ w ∧ trim w = w := by decide
    obtain ⟨hcomma', htrim⟩ := hwords direction hdirection
    obtain ⟨hcolon, hcomma, hkey⟩ := ht.of_spelled hword
    rw [comma_notMem_append_colon_iff, describes_append_colon_iff hcolon, hu.trim_eq, htrim]
    exact ⟨⟨hcomma, hu.notMem (by decide) hcomma'⟩, hkey, iff_of_true rfl hdirection⟩
  | ascending hword ht hu hcomma' =>
    obtain ⟨hcolon, hcomma, hkey⟩ := ht.of_spelled hword
    rw [comma_notMem_append_colon_iff, describes_append_colon_iff hcolon]
    exact ⟨⟨hcomma, hcomma'⟩, hkey, iff_of_false Bool.false_ne_true hu⟩

/-- A part without a comma that describes a criterion is one in print. -/
theorem Describes.printed {part : Text} {c : Criterion} (h : Describes part c)
    (hcomma : ',' ∉ part) :
  Printed part c
  := by
  obtain ⟨key, descending⟩ := c
  by_cases hcolon : ':' ∈ part
  · obtain ⟨t, u, rfl, ht⟩ := List.eq_append_cons_of_mem hcolon
    rw [describes_append_colon_iff ht] at h
    rw [comma_notMem_append_colon_iff] at hcomma
    cases descending with
    | false =>
      apply Printed.ascending h.1 (padded_trim t) _ hcomma.2
      exact fun hmem => Bool.false_ne_true (h.2.mpr hmem)
    | true => exact .descending h.1 (padded_trim t) (h.2.mp rfl) (padded_trim u)
  · obtain ⟨hkey, rfl⟩ := (describes_iff_of_notMem hcolon _).mp h
    exact .bare hkey (padded_trim part)

theorem forall₂_printed_iff {parts : List Text} {spec : SortSpec} :
  List.Forall₂ Printed parts spec
    ↔ (∀ part ∈ parts, ',' ∉ part) ∧ List.Forall₂ Describes parts spec
  := by
  rw [← List.forall₂_and_left]
  constructor
  · apply List.Forall₂.imp
    exact fun _ _ => Printed.describes
  · apply List.Forall₂.imp
    exact fun _ _ h => h.2.printed h.1

/-- Parts that hold no comma are the parts of the text they are joined to by commas. -/
theorem filledParts_join {ps : List Text} (h : ∀ part ∈ ps, ',' ∉ part) :
  filledParts (join [','] ps) = ps.filter fun part => !isBlankLine part
  := by
  rw [filledParts, parts_eq_splitOn, join]
  cases ps with
  | nil => rfl
  | cons part ps => rw [List.splitOn_intercalate ',' h (List.cons_ne_nil part ps)]

/-- Criteria are read exactly from their printed forms, with commas between them and blank parts
anywhere. -/
theorem read_eq_ok_iff_printed (t : Text) (spec : SortSpec) :
  read t = .ok spec ↔ ∃ ps, t = join [','] ps
    ∧ List.Forall₂ Printed (ps.filter fun part => !isBlankLine part) spec
  := by
  rw [read_eq_ok_iff]
  constructor
  · intro h
    use parts ',' t
    constructor
    · rw [parts_eq_splitOn, join, List.intercalate_splitOn]
    · rw [forall₂_printed_iff]
      use fun part hpart => notMem_of_mem_parts (List.mem_of_mem_filter hpart)
      exact h
  · rintro ⟨ps, rfl, h⟩
    rw [forall₂_printed_iff] at h
    rw [filledParts_join]
    · exact h.2
    · intro part hpart
      by_cases hblank : isBlankLine part
      · intro hcomma
        exact absurd ((isBlankLine_iff part).mp hblank _ hcomma) (by decide)
      · apply h.1 part
        rw [List.mem_filter, Bool.not_eq_true']
        exact ⟨hpart, Bool.eq_false_iff.mpr hblank⟩

/-- A list of criteria is read exactly if every part that is not blank has a key, in any case of its
letters; then it has one criterion for each such part, in order.  Otherwise the first part without a
key is reported, with what stands in the place of the key in lower case.  So criteria in print are
read back, whatever the spelling of their words, the white space around them and the blank parts
between them. -/
theorem read_exact (t : Text) :
  ((∃ spec, read t = .ok spec) ↔ ∀ part ∈ filledParts t, HasKey part)
    ∧ (∀ spec, read t = .ok spec ↔ List.Forall₂ Describes (filledParts t) spec)
    ∧ (∀ u, read t = .error u ↔ ∃ before part after, filledParts t = before ++ part :: after
        ∧ (∀ p ∈ before, HasKey p) ∧ ¬ HasKey part
        ∧ u.message = "Unknown sort key: ".toList ++ lower (keyWord part))
    ∧ ∀ spec, read t = .ok spec ↔ ∃ ps, t = join [','] ps
        ∧ List.Forall₂ Printed (ps.filter fun part => !isBlankLine part) spec
  := by
  refine ⟨exists_read_iff t, read_eq_ok_iff t, fun u => ?_, read_eq_ok_iff_printed t⟩
  rw [read_eq_error_iff]
  constructor
  · rintro ⟨before, part, after, hparts, hbefore, hpart, hu⟩
    exact ⟨before, part, after, hparts, hbefore, hpart, (UnknownKey.message_eq_iff u _).mpr hu⟩
  · rintro ⟨before, part, after, hparts, hbefore, hpart, hu⟩
    exact ⟨before, part, after, hparts, hbefore, hpart, (UnknownKey.message_eq_iff u _).mp hu⟩

example : read " Tokens : DESC ,, nAmE:desc:x\t,".toList
    = .ok [⟨.tokens, true⟩, ⟨.name, false⟩] := by
  decide +kernel

end SortSpec

end CartTokens
