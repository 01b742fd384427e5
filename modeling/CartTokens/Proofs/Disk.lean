import CartTokens.Proofs.Path

/-!
# Files and the paths that name them

Dots between other names lead nowhere else, so paths with the same components lead to the same
place, unless one of them ends in a slash or in dots (`Disk.read_eq_of_same`).

In a file system such an end asks for a directory, so a path under which a file can be read ends
in a name.  That is the name of the file, and it depends only on the components
(`Disk.IsTree.fileName_eq`).
-/

namespace CartTokens.Disk

/-! ### Dots between other names -/

theorem follow_dot_cons (d : Disk) (links : Nat) (loc : Location) {rest : List Text}
    (hrest : rest ≠ []) :
  d.follow links loc (['.'] :: rest) = d.follow links loc rest
  := by
  obtain ⟨step, rest, rfl⟩ := List.exists_cons_of_ne_nil hrest
  by_cases hdir : d.get? loc ≠ some .directory
  · rw [follow, if_pos hdir, follow, if_pos hdir]
  · rw [follow, if_neg hdir, if_pos rfl]

/-- A dot before other names leads nowhere else, whatever comes before it. -/
theorem follow_append_dot (d : Disk) (links : Nat) (loc : Location) (steps : List Text)
    {rest : List Text} (hrest : rest ≠ []) :
  d.follow links loc (steps ++ ['.'] :: rest) = d.follow links loc (steps ++ rest)
  := by
  -- a link puts names of its own before those that are left, so the induction is on links first
  induction links using Nat.strong_induction_on generalizing loc steps with
  | _ links ihlinks =>
    induction steps generalizing loc with
    | nil => exact d.follow_dot_cons links loc hrest
    | cons step steps ih =>
      have hleft : (steps ++ ['.'] :: rest).isEmpty = false := by simp
      have hright : (steps ++ rest).isEmpty = false := by simp [hrest]
      rw [List.cons_append, List.cons_append, follow, follow, ih, ih, ih, hleft, hright]
      cases links with
      | zero => rfl
      | succ fewer =>
        have hlink : ∀ (loc : Location) (target : Path),
            d.follow fewer loc (target.steps ++ (steps ++ ['.'] :: rest))
              = d.follow fewer loc (target.steps ++ (steps ++ rest)) := by
          intro loc target
          rw [← List.append_assoc, ← List.append_assoc]
          apply ihlinks fewer (Nat.lt_succ_self fewer)
        simp only [hlink]

theorem follow_append_filter (d : Disk) (links : Nat) (loc : Location) (before steps : List Text)
    (hlast : steps.getLast? ≠ some ['.']) :
  d.follow links loc (before ++ steps.filter (· != ['.'])) = d.follow links loc (before ++ steps)
  := by
  induction steps generalizing before with
  | nil => rfl
  | cons step rest ih =>
    by_cases hdot : step = ['.']
    · obtain rfl := hdot
      have hrest : rest ≠ [] := by
        rintro rfl
        exact hlast rfl
      rw [List.getLast?_cons_of_ne_nil hrest] at hlast
      rw [List.filter_cons_of_neg (by decide), ih before hlast, d.follow_append_dot _ _ _ hrest]
    · have hlast' : rest.getLast? ≠ some ['.'] := by
        intro h
        apply hlast
        rw [List.getLast?_cons, h]
        rfl
      rw [List.filter_cons_of_pos (by simpa using hdot), List.append_cons,
        ih (before ++ [step]) hlast', ← List.append_cons]

/-- Paths with the same components lead to the same place, unless one ends in a slash or in
dots. -/
theorem follow_eq_of_same (d : Disk) (links : Nat) (loc : Location) {p q : Path} (h : p.same q)
    (hp : ¬ EndsInDots p.steps) (hq : ¬ EndsInDots q.steps) :
  d.follow links loc p.steps = d.follow links loc q.steps
  := by
  have hfilter : p.steps.filter (· != ['.']) = q.steps.filter (· != ['.']) := by
    rw [Path.filter_steps hp, Path.filter_steps hq, Path.same_iff.mp h]
  have hleft := d.follow_append_filter links loc [] p.steps fun hlast => hp (.inl hlast)
  have hright := d.follow_append_filter links loc [] q.steps fun hlast => hq (.inl hlast)
  simp only [List.nil_append] at hleft hright
  rw [← hleft, hfilter, hright]

theorem start_eq_of_same (d : Disk) {p q : Path} (h : p.same q) :
  d.start p = d.start q
  := by
  have habsolute : p.isAbsolute ↔ q.isAbsolute := by
    rw [Path.isAbsolute_iff, Path.isAbsolute_iff, Path.same_iff.mp h]
  simp only [start, habsolute]

theorem resolve_eq_of_same (d : Disk) {p q : Path} (h : p.same q) (hp : ¬ EndsInDots p.steps)
    (hq : ¬ EndsInDots q.steps) :
  d.resolve p = d.resolve q
  := by
  have hempty : p.text.isEmpty ↔ q.text.isEmpty := by
    rw [List.isEmpty_iff, List.isEmpty_iff, ← not_iff_not]
    constructor
    · exact fun hne => Path.text_ne_nil_of_same hne hp h
    · exact fun hne => Path.text_ne_nil_of_same hne hq (Path.same_symm h)
  have hnul : p.text.contains '\x00' ↔ q.text.contains '\x00' := by
    rw [List.contains_iff_mem, List.contains_iff_mem, Path.mem_text_iff (by decide) (by decide),
      Path.mem_text_iff (by decide) (by decide), Path.same_iff.mp h]
  simp only [resolve, hempty, hnul, d.start_eq_of_same h, d.follow_eq_of_same _ _ h hp hq]

theorem read_eq_of_same (d : Disk) {p q : Path} (h : p.same q) (hp : ¬ EndsInDots p.steps)
    (hq : ¬ EndsInDots q.steps) :
  d.read p = d.read q
  := by
  rw [read, read, d.resolve_eq_of_same h hp hq]

/-! ### Paths that end in a name -/

theorem contentOf_eq_ok {item : Item} {content : Bytes} (h : contentOf item = .ok content) :
  item = .file content
  := by
  cases item with
  | file _ => rw [Except.ok.inj h]
  | unreadable | directory | link _ => exact absurd h (by simp [contentOf])

/-- What is read is the file that the path leads to. -/
theorem follow_of_read {d : Disk} {p : Path} {content : Bytes} (h : d.read p = .ok content) :
  p.text ≠ []
    ∧ ∃ loc, d.follow maxLinks (d.start p) p.steps = .ok (loc, some (.file content))
  := by
  rw [read, resolve] at h
  split at h
  · exact absurd h (by simp [bind, Except.bind])
  · rename_i hne
    split at h
    · exact absurd h (by simp [bind, Except.bind])
    · split at h
      · exact absurd h (by simp [bind, Except.bind])
      · exact absurd h (by simp [bind, Except.bind])
      · rename_i loc item hfollow
        obtain rfl : item = .file content := contentOf_eq_ok h
        exact ⟨by simpa using hne, loc, hfollow⟩

/-- A file system is a tree: whatever is stored lies in a directory. -/
def IsTree (d : Disk) : Prop :=
  ∀ entry ∈ d.items, d.get? entry.1.dropLast = some .directory

instance (d : Disk) : Decidable d.IsTree :=
  inferInstanceAs (Decidable (∀ entry ∈ d.items, d.get? entry.1.dropLast = some .directory))

namespace IsTree

variable {d : Disk} (tree : d.IsTree)

include tree

theorem get?_dropLast {loc : Location} {item : Item} (h : d.get? loc = some item) :
  d.get? loc.dropLast = some .directory
  := by
  by_cases hroot : loc = []
  · rw [hroot]
    rfl
  · rw [get?, if_neg hroot, List.lookup_eq_some_iff] at h
    obtain ⟨before, after, hitems, -⟩ := h
    apply tree (loc, item)
    rw [hitems]
    simp

/-- Dots at the end lead to a directory. -/
theorem follow_endsInDots {links : Nat} {loc : Location} {steps : List Text}
    {found : Location × Option Item} (h : d.follow links loc steps = .ok found)
    (hdots : EndsInDots steps) :
  found.2 = some .directory
  := by
  -- the names before the dots lead anywhere, so the induction is on all of the way
  fun_induction d.follow links loc steps with
  | case1 => exact absurd rfl hdots.ne_nil
  | case2 => exact absurd h (by simp)
  | case3 links loc rest hdir ih =>
    by_cases hrest : rest = []
    · rw [hrest, follow] at h
      rw [← Except.ok.inj h]
      exact not_not.mp hdir
    · exact ih h ((endsInDots_cons hrest _).mp hdots)
  | case4 links loc rest hdir _ ih =>
    by_cases hrest : rest = []
    · rw [hrest, follow] at h
      rw [← Except.ok.inj h]
      exact tree.get?_dropLast (not_not.mp hdir)
    · exact ih h ((endsInDots_cons hrest _).mp hdots)
  | case5 => exact absurd h (by simp)
  | case6 links loc step rest _ hdot hdots' _ _ hempty =>
    exact absurd (List.isEmpty_iff.mp hempty) (hdots.tail hdot hdots').ne_nil
  | case7 => exact absurd h (by simp)
  | case8 => exact absurd h (by simp)
  | case9 loc step rest _ hdot hdots' _ target _ fewer ih =>
    have hrest := hdots.tail hdot hdots'
    exact ih h ((endsInDots_append hrest.ne_nil target.steps).mpr hrest)
  | case10 links loc step rest _ hdot hdots' _ item _ _ ih =>
    exact ih h (hdots.tail hdot hdots')

/-- A path under which a file can be read ends in a name. -/
theorem exists_fileName? {p : Path} {content : Bytes} (h : d.read p = .ok content) :
  ∃ name, p.fileName? = some name
  := by
  obtain ⟨hne, loc, hfollow⟩ := follow_of_read h
  apply Path.exists_fileName? hne
  intro hdots
  have hdirectory := tree.follow_endsInDots hfollow hdots
  exact absurd hdirectory (by simp)

/-- The name of a file depends only on the components of its path. -/
theorem fileName_eq {p q : Path} {content : Bytes} (h : d.read p = .ok content)
    (hsame : p.same q) :
  p.fileName = q.fileName
  := by
  obtain ⟨name, hname⟩ := tree.exists_fileName? h
  rw [Path.fileName, Path.fileName, ← Path.fileName?_eq_of_same hsame, hname]
  rfl

end IsTree

end CartTokens.Disk
