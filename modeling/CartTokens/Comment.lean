import CartTokens.Text.Basic

/-!
# Block comments

A block comment begins with `--[`, some number of `=` and `[`, and ends at the first `]`, the
same number of `=` and `]` after that.  `replaceComments` puts a given text in the place of
each block comment; an opener without a closer is ordinary text, and does not hide a comment
that begins after it.
-/

namespace CartTokens

/-- What opens a block comment of the given level. -/
def commentOpener (level : Nat) : Text :=
  "--[".toList ++ List.replicate level '=' ++ ['[']

/-- What closes a block comment of the given level. -/
def commentCloser (level : Nat) : Text :=
  [']'] ++ List.replicate level '=' ++ [']']

/-- The level of the opener that a text begins with, and the text after it. -/
def opener? (t : Text) : Option (Nat × Text) :=
  match Text.after? "--[".toList t with
  | none => none
  | some rest =>
    match rest.dropWhile (· == '=') with
    | '[' :: body => some ((rest.takeWhile (· == '=')).length, body)
    | _ => none

/-- The text before the first opener, the level of that opener, and the text after it.  Where
`--[` opens no comment the search goes on behind it. -/
def findOpener : Text → Option (Text × Nat × Text)
  | [] => none
  | '-' :: '-' :: '[' :: rest =>
    match opener? ('-' :: '-' :: '[' :: rest) with
    | some (level, body) => some ([], level, body)
    | none => (findOpener rest).map fun found => ('-' :: '-' :: '[' :: found.1, found.2)
  | c :: cs => (findOpener cs).map fun found => (c :: found.1, found.2)

/-- The text after the first occurrence of `mark`. -/
def afterFirst? (mark : Text) : Text → Option Text
  | [] => none
  | c :: cs =>
    match Text.after? mark (c :: cs) with
    | some rest => some rest
    | none => afterFirst? mark cs

theorem length_of_after? {start t rest : Text} (h : Text.after? start t = some rest) :
  rest.length ≤ t.length
  := by
  rw [Text.after?_eq_some_iff] at h
  simp [h]

theorem length_of_opener? {t : Text} {level : Nat} {body : Text}
    (h : opener? t = some (level, body)) :
  body.length < t.length
  := by
  unfold opener? at h
  split at h
  · simp at h
  · rename_i rest hr
    have le := length_of_after? hr
    split at h
    · rename_i b hb
      have sub := (List.dropWhile_suffix (l := rest) (· == '=')).length_le
      simp_all only [Option.some.injEq, Prod.mk.injEq, List.length_cons]
      omega
    · simp at h

theorem length_of_findOpener {t : Text} {before : Text} {level : Nat} {body : Text}
    (h : findOpener t = some (before, level, body)) :
  body.length < t.length
  := by
  fun_induction findOpener t generalizing before with
  | case1 => contradiction
  | case2 rest l b hopen =>
    obtain ⟨-, rfl, rfl⟩ : [] = before ∧ l = level ∧ b = body := by simpa using h
    exact length_of_opener? hopen
  | case3 rest hopen ih =>
    obtain ⟨found, hfound, heq⟩ := Option.map_eq_some_iff.mp h
    have hrest : findOpener rest = some (found.1, level, body) := by
      rw [hfound, ← (Prod.mk.inj heq).2]
    have := ih hrest
    simp only [List.length_cons]
    omega
  | case4 c cs hnot ih =>
    obtain ⟨found, hfound, heq⟩ := Option.map_eq_some_iff.mp h
    have hrest : findOpener cs = some (found.1, level, body) := by
      rw [hfound, ← (Prod.mk.inj heq).2]
    exact Nat.lt_succ_of_lt (ih hrest)

theorem length_of_afterFirst? {mark t rest : Text} (h : afterFirst? mark t = some rest) :
  rest.length ≤ t.length
  := by
  induction t with
  | nil => simp [afterFirst?] at h
  | cons c cs ih =>
    unfold afterFirst? at h
    split at h
    · rename_i r hr
      have := length_of_after? hr
      simp_all
    · have := ih h
      simp only [List.length_cons]
      omega

/-- The text with `fill` in the place of every block comment. -/
def replaceComments (fill : Text) (t : Text) : Text :=
  match _found : findOpener t with
  | none => t
  | some (before, level, body) =>
    match _closed : afterFirst? (commentCloser level) body with
    | some rest => before ++ fill ++ replaceComments fill rest
    | none => before ++ commentOpener level ++ replaceComments fill body
termination_by t.length
decreasing_by
  · exact Nat.lt_of_le_of_lt (length_of_afterFirst? _closed) (length_of_findOpener _found)
  · exact length_of_findOpener _found

/-- The text without its block comments. -/
def stripComments (t : Text) : Text :=
  replaceComments [] t

end CartTokens
