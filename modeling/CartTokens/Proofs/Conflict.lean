import CartTokens.Proofs.Bundle

/-!
# Conflicts between sources

A section besides code may come from one source only.  The sources are gone through one after
another: a section is found from the first source on that has it with a body
(`Bundle.mem_names_gather`), and in conflict from the second on (`Bundle.conflicts_gather`).

So a combination fails exactly if there are no sources or some section is in two of them, and
then it reports each such section once, in the order of the second sources
(`Bundle.combine_outcomes`).
-/

namespace CartTokens

namespace Bundle

open Section

/-! ### The sources that have a section -/

/-- The places of the sources that have the section with a body. -/
def holders (sources : List Source) (name : Text) : List Nat :=
  sources.findIdxs fun source => (dataBody? source name).isSome

theorem holders_concat (sources : List Source) (source : Source) (name : Text) :
  holders (sources ++ [source]) name
    = holders sources name ++ if (dataBody? source name).isSome then [sources.length] else []
  := by
  rw [holders, List.findIdxs_append, List.findIdxs_singleton, Nat.zero_add]
  rfl

theorem length_holders_concat (sources : List Source) (source : Source) (name : Text) :
  (holders (sources ++ [source]) name).length
    = (holders sources name).length + if (dataBody? source name).isSome then 1 else 0
  := by
  rw [holders_concat, List.length_append]
  split <;> rfl

theorem lt_of_mem_holders {sources : List Source} {name : Text} {i : Nat}
    (h : i ∈ holders sources name) :
  i < sources.length
  := List.lt_add_of_mem_findIdxs i h

/-- The second source that has a section stays the second. -/
theorem getElem?_holders_concat {sources : List Source} {name : Text} {i : Nat}
    (h : (holders sources name)[1]? = some i) (source : Source) :
  (holders (sources ++ [source]) name)[1]? = some i
  := by
  obtain ⟨hlength, -⟩ := List.getElem?_eq_some_iff.mp h
  rw [holders_concat, List.getElem?_append_left hlength, h]

/-- One section comes into conflict before another: the second source that has it comes first,
or it is the same source and the section is written first. -/
def ClashesBefore (sources : List Source) (a b : Text) : Prop :=
  ∃ i j : Nat, (holders sources a)[1]? = some i ∧ (holders sources b)[1]? = some j
    ∧ (i < j ∨ i = j ∧ dataSections.idxOf a < dataSections.idxOf b)

theorem ClashesBefore.concat {sources : List Source} {a b : Text}
    (h : ClashesBefore sources a b) (source : Source) :
  ClashesBefore (sources ++ [source]) a b
  := by
  obtain ⟨i, j, ha, hb, hij⟩ := h
  use i, j, getElem?_holders_concat ha source, getElem?_holders_concat hb source, hij

/-- The names are those of the sections that two sources or more have, each once, in the order
in which they come into conflict. -/
structure Conflicts (sources : List Source) (names : List Text) : Prop where
  mem_iff : ∀ name, name ∈ names ↔ name ∈ dataSections ∧ 2 ≤ (holders sources name).length
  nodup : names.Nodup
  ordered : names.Pairwise (ClashesBefore sources)

/-! ### Going through the sources -/

/-- The names of the sections found so far. -/
def Gathered.names (g : Gathered) : List Text :=
  g.found.map Section.name

theorem Gathered.any_found_iff (g : Gathered) (s : Section) :
  g.found.any (·.name == s.name) ↔ s.name ∈ g.names
  := by
  rw [List.any_eq_true, names, List.mem_map]
  simp only [beq_iff_eq]

/-- After a section is added, its name is found. -/
theorem Gathered.mem_names_add (g : Gathered) (s : Section) (name : Text) :
  name ∈ (g.add s).names ↔ name ∈ g.names ∨ name = s.name
  := by
  rw [add]
  split
  · rename_i hfound
    rw [any_found_iff] at hfound
    have hsame : name ∈ g.names ↔ name ∈ g.names ∨ name = s.name := by
      rw [iff_self_or]
      rintro rfl
      apply hfound
    split <;> apply hsame
  · rw [names, List.map_append, List.mem_append, List.map_singleton, List.mem_singleton]
    rfl

/-- A section that is added is in conflict if its name was found before, and it is reported if
it was not before. -/
theorem Gathered.conflicts_add (g : Gathered) (s : Section) :
  (g.add s).conflicts
    = g.conflicts ++ if s.name ∈ g.names ∧ s.name ∉ g.conflicts then [s.name] else []
  := by
  rw [add]
  split
  · rename_i hfound
    rw [any_found_iff] at hfound
    split
    · rename_i hreported
      rw [List.contains_iff_mem] at hreported
      rw [if_neg fun h => h.2 hreported, List.append_nil]
    · rename_i hreported
      rw [List.contains_iff_mem] at hreported
      rw [if_pos ⟨hfound, hreported⟩]
  · rename_i hfound
    rw [any_found_iff] at hfound
    rw [if_neg fun h => hfound h.1, List.append_nil]

theorem Gathered.mem_names_foldl_add (g : Gathered) (ss : List Section) (name : Text) :
  name ∈ (ss.foldl add g).names ↔ name ∈ g.names ∨ name ∈ ss.map Section.name
  := by
  induction ss generalizing g with
  | nil => simp
  | cons s ss ih => rw [List.foldl_cons, ih, mem_names_add, List.map_cons, List.mem_cons, or_assoc]

/-- Of sections with names of their own, those found before are reported, unless they were
before, in their order. -/
theorem Gathered.conflicts_foldl_add (g : Gathered) {ss : List Section}
    (h : (ss.map Section.name).Nodup) :
  (ss.foldl add g).conflicts
    = g.conflicts
      ++ (ss.map Section.name).filter fun name => name ∈ g.names ∧ name ∉ g.conflicts
  := by
  induction ss generalizing g with
  | nil => simp
  | cons s ss ih =>
    rw [List.map_cons, List.nodup_cons] at h
    -- the other names are found, and in conflict, exactly if they were before this section
    have hother : (ss.map Section.name).filter
          (fun name => name ∈ (g.add s).names ∧ name ∉ (g.add s).conflicts)
        = (ss.map Section.name).filter fun name => name ∈ g.names ∧ name ∉ g.conflicts := by
      apply List.filter_congr
      intro name hname
      have hne : name ≠ s.name := fun heq => h.1 (heq ▸ hname)
      have hlast : name ∉ if s.name ∈ g.names ∧ s.name ∉ g.conflicts then [s.name] else [] := by
        split <;> simp [hne]
      rw [decide_eq_decide, mem_names_add, conflicts_add, List.mem_append]
      simp [hne, hlast]
    rw [List.foldl_cons, ih _ h.2, hother, conflicts_add, List.map_cons, List.filter_cons,
      List.append_assoc]
    simp only [decide_eq_true_eq]
    split <;> rfl

theorem gather_concat (sources : List Source) (source : Source) :
  gather (sources ++ [source]) = (dataOf source).foldl Gathered.add (gather sources)
  := by
  rw [gather, List.flatMap_append, List.foldl_append, List.flatMap_singleton]
  rfl

theorem map_name_dataOf (source : Source) :
  (dataOf source).map Section.name
    = dataSections.filter fun name => (dataBody? source name).isSome
  := by
  rw [dataOf_eq_listed, map_name_listed]

/-- The names found are those of the sections that some source has. -/
theorem mem_names_gather (sources : List Source) (name : Text) :
  name ∈ (gather sources).names ↔ name ∈ dataSections ∧ 1 ≤ (holders sources name).length
  := by
  induction sources using List.reverseRecOn with
  | nil => simp [gather, Gathered.names, holders]
  | append_singleton sources source ih =>
    rw [gather_concat, Gathered.mem_names_foldl_add, ih, map_name_dataOf, List.mem_filter,
      length_holders_concat, ← and_or_left]
    apply and_congr_right
    intro _
    by_cases hhas : (dataBody? source name).isSome
    · simp [hhas]
    · simp [hhas]

section

variable {sources : List Source} (source : Source)

/-- The sections that come into conflict with one more source: those that it has and one source
before it. -/
def clashes (sources : List Source) (source : Source) : List Text :=
  dataSections.filter fun name =>
    (dataBody? source name).isSome ∧ (holders sources name).length = 1

theorem mem_clashes_iff {name : Text} :
  name ∈ clashes sources source
    ↔ name ∈ dataSections ∧ (dataBody? source name).isSome ∧ (holders sources name).length = 1
  := by
  rw [clashes, List.mem_filter, decide_eq_true_iff]

/-- The second source that has a section which comes into conflict is the last one. -/
theorem getElem?_holders_of_mem_clashes {name : Text} (h : name ∈ clashes sources source) :
  (holders (sources ++ [source]) name)[1]? = some sources.length
  := by
  obtain ⟨-, hhas, hone⟩ := (mem_clashes_iff source).mp h
  rw [holders_concat, if_pos hhas, ← hone, List.getElem?_concat_length]

/-- With one more source, the sections that it brings into conflict are reported after those
reported before. -/
theorem Conflicts.concat {names : List Text} (h : Conflicts sources names) :
  Conflicts (sources ++ [source]) (names ++ clashes sources source)
  where
  mem_iff := by
    intro name
    rw [List.mem_append, h.mem_iff, mem_clashes_iff, ← and_or_left, length_holders_concat]
    apply and_congr_right
    intro _
    by_cases hhas : (dataBody? source name).isSome
    · simp only [hhas, true_and, if_true]
      omega
    · simp [hhas]
  nodup := by
    have hsections : dataSections.Nodup := by decide
    rw [List.nodup_append']
    refine ⟨h.nodup, hsections.filter _, ?_⟩
    intro name hbefore hnow
    have htwo := ((h.mem_iff name).mp hbefore).2
    have hone := ((mem_clashes_iff source).mp hnow).2.2
    omega
  ordered := by
    have hsections : dataSections.Pairwise
        fun a b => dataSections.idxOf a < dataSections.idxOf b := by
      decide
    rw [List.pairwise_append]
    refine ⟨h.ordered.imp fun hab => hab.concat source, ?_, ?_⟩
    · apply (hsections.filter _).imp_of_mem
      intro a b ha hb hab
      use sources.length, sources.length, getElem?_holders_of_mem_clashes source ha,
        getElem?_holders_of_mem_clashes source hb, .inr ⟨rfl, hab⟩
    · intro a ha b hb
      have htwo : 1 < (holders sources a).length := ((h.mem_iff a).mp ha).2
      use (holders sources a)[1], sources.length,
        getElem?_holders_concat (List.getElem?_eq_getElem htwo) source,
        getElem?_holders_of_mem_clashes source hb, .inl (lt_of_mem_holders (List.getElem_mem htwo))

theorem conflicts_gather_concat (h : Conflicts sources (gather sources).conflicts) :
  (gather (sources ++ [source])).conflicts
    = (gather sources).conflicts ++ clashes sources source
  := by
  have hnodup : ((dataOf source).map Section.name).Nodup := by
    rw [dataOf_eq_listed]
    apply nodup_map_name_listed
    decide
  rw [gather_concat, Gathered.conflicts_foldl_add _ hnodup, map_name_dataOf, List.filter_filter,
    clashes]
  congr 1
  apply List.filter_congr
  intro name hname
  have hone : name ∈ (gather sources).names ∧ name ∉ (gather sources).conflicts
      ↔ (holders sources name).length = 1 := by
    rw [mem_names_gather, h.mem_iff]
    simp only [hname, true_and]
    omega
  rw [decide_eq_decide.mpr hone, Bool.decide_and, Bool.decide_eq_true, Bool.and_comm]

end

/-- The names reported after all sources are those of the sections in conflict. -/
theorem conflicts_gather (sources : List Source) :
  Conflicts sources (gather sources).conflicts
  := by
  induction sources using List.reverseRecOn with
  | nil =>
    constructor
    case mem_iff => simp [gather, holders]
    case nodup => apply List.nodup_nil
    case ordered => apply List.Pairwise.nil
  | append_singleton sources source ih =>
    rw [conflicts_gather_concat source ih]
    apply ih.concat

/-! ### The outcomes of a combination -/

theorem value_combine (sources : List Source) :
  (combine sources).value
    = if sources = [] then .error .noSelection
      else if (gather sources).conflicts = [] then
        .ok (assemble (sources.filterMap tab?) (gather sources).found)
      else .error (.sectionConflict (gather sources).conflicts)
  := by
  rw [combine]
  simp only [List.isEmpty_iff, Bool.not_eq_true', List.isEmpty_eq_false_iff, ite_not]
  split
  · rfl
  · split <;> rfl

theorem combine_eq_noSelection_iff (sources : List Source) :
  (combine sources).value = .error .noSelection ↔ sources = []
  := by
  rw [value_combine]
  split
  · simp_all
  · split <;> simp_all

theorem combine_eq_sectionConflict_iff (sources : List Source) (names : List Text) :
  (combine sources).value = .error (.sectionConflict names)
    ↔ (gather sources).conflicts ≠ [] ∧ (gather sources).conflicts = names
  := by
  rw [value_combine]
  split
  · rename_i hsources
    subst hsources
    simp [gather]
  · split <;> simp_all

theorem combine_eq_ok_iff (sources : List Source) :
  (∃ out, (combine sources).value = .ok out) ↔ sources ≠ [] ∧ (gather sources).conflicts = []
  := by
  rw [value_combine]
  split
  · simp_all
  · split <;> simp_all

/-- A combination fails for want of sources, or else if some section besides code is in two of
them, and then it reports all these sections; in all other cases it succeeds. -/
theorem combine_outcomes (sources : List Source) :
  ((combine sources).value = .error .noSelection ↔ sources = [])
    ∧ ((∃ names, (combine sources).value = .error (.sectionConflict names))
        ↔ ∃ name ∈ dataSections, 2 ≤ (holders sources name).length)
    ∧ (∀ names, (combine sources).value = .error (.sectionConflict names) →
        Conflicts sources names)
    ∧ ((∃ out, (combine sources).value = .ok out)
        ↔ sources ≠ [] ∧ ∀ name ∈ dataSections, (holders sources name).length < 2)
  := by
  have hconflicts := conflicts_gather sources
  have hsome : (gather sources).conflicts ≠ []
      ↔ ∃ name ∈ dataSections, 2 ≤ (holders sources name).length := by
    rw [Ne, List.eq_nil_iff_forall_not_mem, not_forall_not]
    apply exists_congr hconflicts.mem_iff
  refine ⟨combine_eq_noSelection_iff sources, ?_, ?_, ?_⟩
  · simp only [combine_eq_sectionConflict_iff, exists_and_left, exists_eq', and_true]
    apply hsome
  · intro names h
    obtain ⟨-, rfl⟩ := (combine_eq_sectionConflict_iff sources names).mp h
    apply hconflicts
  · rw [combine_eq_ok_iff, ← not_ne_iff (a := (gather sources).conflicts), hsome]
    simp only [not_exists, not_and, not_le]

example : (combine
    [⟨"a.p8".toList, "__gfx__\n00\n__map__\n01\n".toList⟩,
      ⟨"b.p8".toList, "__gfx__\n__map__\n02\n".toList⟩,
      ⟨"c.p8".toList, "__gfx__\n00\n__map__\n03\n".toList⟩]).value
      = .error (.sectionConflict ["__map__".toList, "__gfx__".toList]) := by
  decide +kernel

end Bundle

end CartTokens
