import CartTokens.Proofs.Delivery
import CartTokens.Proofs.StableSort

/-!
# Counting a list of files

Every path of a list comes to an entry or to a failure (`Survey.outcome`), and a count keeps each
of these once: the failures as they come, the entries in the order of their paths
(`Survey.counts_errors_perm`).  A strict count gives the same entries if there is no failure, and
else one of the failures; so no file is lost either way (`Survey.no_file_lost`).
-/

namespace CartTokens

namespace Survey

/-- What comes of a path: the entry of its file, or why the file cannot be read. -/
def outcome (d : Disk) (p : Path) : Entry ⊕ (Path × Failure) :=
  match d.read p with
  | .ok content => .inl (.ofPath p (countBytes content))
  | .error fault => .inr (p, .fileRead p fault)

section

variable (d : Disk) (paths : List Path)

/-- The entries of the files, in the order of the list. -/
def entries : List Entry :=
  (paths.map (outcome d)).filterMap Sum.getLeft?

/-- The failures, in the order of the list. -/
def failures : List (Path × Failure) :=
  (paths.map (outcome d)).filterMap Sum.getRight?

theorem counted_eq_entries :
  counted d paths = entries d paths
  := by
  rw [counted, entries, List.filterMap_map]
  apply List.filterMap_congr
  intro p _
  rw [toOption_countFile, Function.comp_apply, outcome]
  cases d.read p <;> rfl

theorem failed_eq_failures :
  failed d paths = failures d paths
  := by
  rw [failed, failures, List.filterMap_map]
  apply List.filterMap_congr
  intro p _
  rw [countFile, readFile, Function.comp_apply, outcome]
  cases d.read p <;> rfl

variable {d paths} in
/-- Each failure is that of a file that cannot be read. -/
theorem of_mem_failures {p : Path} {failure : Failure} (h : (p, failure) ∈ failures d paths) :
  p ∈ paths ∧ ∃ fault, d.read p = .error fault ∧ failure = .fileRead p fault
  := by
  obtain ⟨x, hx, hright⟩ := List.mem_filterMap.mp h
  obtain ⟨q, hq, rfl⟩ := List.mem_map.mp hx
  rw [outcome] at hright
  cases hread : d.read q with
  | ok content =>
    rw [hread] at hright
    simp at hright
  | error fault =>
    rw [hread] at hright
    obtain ⟨rfl, rfl⟩ := Prod.mk.inj (Option.some.inj hright)
    use hq, fault

/-- There are failures unless every file can be read. -/
theorem failures_eq_nil_iff :
  failures d paths = [] ↔ ∀ p ∈ paths, (d.read p).isOk
  := by
  rw [failures, List.filterMap_map, List.filterMap_eq_nil_iff]
  apply forall₂_congr
  intro p _
  rw [Function.comp_apply, outcome]
  cases d.read p <;> simp [Except.isOk, Except.toBool]

end

/-- The two kinds of results, one after the other, are all results. -/
theorem lefts_append_rights_perm {α β : Type} (xs : List (α ⊕ β)) :
  ((xs.filterMap Sum.getLeft?).map Sum.inl ++ (xs.filterMap Sum.getRight?).map Sum.inr).Perm xs
  := by
  induction xs with
  | nil => apply List.Perm.nil
  | cons x xs ih =>
    cases x with
    | inl a => apply ih.cons
    | inr b => apply List.perm_middle.trans (ih.cons _)

section

variable (d : Disk) (paths : List Path)

/-- The entries in the order of their paths. -/
theorem stableSort_entries :
  StableSort precedes (entries d paths) ((entries d paths).mergeSort precedes)
  := stableSort_mergeSort precedes_trans precedes_total _

theorem counts_errors_perm :
  (((entries d paths).mergeSort precedes).map Sum.inl ++ (failures d paths).map Sum.inr).Perm
    (paths.map (outcome d))
  := by
  apply List.Perm.trans _ (lefts_append_rights_perm _)
  apply List.Perm.append_right
  apply (stableSort_entries d paths).perm.map

theorem value_ofPaths_lenient :
  (ofPaths d false paths).value
    = .ok { counts := (entries d paths).mergeSort precedes, errors := failures d paths }
  := by
  rw [value_ofPaths, counted_eq_entries, failed_eq_failures]

variable {paths}

theorem value_ofPaths_strict_of_nil (h : failures d paths = []) :
  (ofPaths d true paths).value
    = .ok { counts := (entries d paths).mergeSort precedes, errors := [] }
  := by
  rw [← failed_eq_failures] at h
  unfold ofPaths
  rw [h, counted_eq_entries]

/-- A strict count gives the first failure, if there is one. -/
theorem value_ofPaths_strict_of_cons {first : Path × Failure} {rest : List (Path × Failure)}
    (h : failures d paths = first :: rest) :
  (ofPaths d true paths).value = .error first.2
  := by
  rw [← failed_eq_failures] at h
  unfold ofPaths
  rw [h]

end

/-- Counting a list of files succeeds.  What cannot be read is reported in the order of the list,
what can be read is counted and put in the order of the paths, and each path of the list is found
once in one of the two.  A strict count succeeds exactly if every file can be read, with the same
counts, and otherwise it reports a file that cannot be read. -/
theorem no_file_lost (d : Disk) (paths : List Path) :
  ∃ survey : Survey,
    (ofPaths d false paths).value = .ok survey
      ∧ survey.errors = failures d paths
      ∧ StableSort precedes (entries d paths) survey.counts
      ∧ (survey.counts.map Sum.inl ++ survey.errors.map Sum.inr).Perm (paths.map (outcome d))
      ∧ ((∃ s : Survey, (ofPaths d true paths).value = .ok s) ↔ ∀ p ∈ paths, (d.read p).isOk)
      ∧ (∀ s : Survey, (ofPaths d true paths).value = .ok s →
          s.counts = survey.counts ∧ s.errors = [])
      ∧ ∀ failure, (ofPaths d true paths).value = .error failure →
          ∃ p ∈ paths, ∃ fault, d.read p = .error fault ∧ failure = .fileRead p fault
  := by
  refine ⟨_, value_ofPaths_lenient d paths, rfl, stableSort_entries d paths,
    counts_errors_perm d paths, ?_⟩
  rw [← failures_eq_nil_iff]
  cases hfailures : failures d paths with
  | nil =>
    rw [value_ofPaths_strict_of_nil d hfailures]
    refine ⟨⟨fun _ => rfl, fun _ => ⟨_, rfl⟩⟩, ?_, ?_⟩
    · intro s hs
      rw [← Except.ok.inj hs]
      exact ⟨rfl, rfl⟩
    · intro failure h
      cases h
  | cons first rest =>
    rw [value_ofPaths_strict_of_cons d hfailures]
    refine ⟨⟨?_, ?_⟩, ?_, ?_⟩
    · rintro ⟨s, hs⟩
      cases hs
    · intro h
      cases h
    · intro s hs
      cases hs
    · intro failure h
      rw [← Except.error.inj h]
      have hfirst : first ∈ failures d paths := by
        rw [hfailures]
        apply List.mem_cons_self
      obtain ⟨hmem, fault, hfault⟩ := of_mem_failures hfirst
      use first.1, hmem, fault

end Survey

end CartTokens
