import CartTokens.Workspace
import Mathlib.Data.List.Forall2
import Mathlib.Data.List.Induction
import Mathlib.Data.List.Nodup

/-!
# Workspaces as maps

A workspace is a map from names to entries.  What it holds depends only on the entries written
to it, one after another, and not on the operations that wrote them:

* of each name it holds the last entry written (`Tracks.get?_eq`);
* the names stand in the order in which they were first written (`Tracks.names`);
* so its entries are those of `held`, a function of what was written (`Tracks.toList_files`).

Buffers are written after the files on disk, so what the disk has under the name of a buffer
has no part in the report, apart from the place of that name (`aggregate_congr`).
-/

namespace CartTokens

/-- The value of a fold with records is the fold of the values. -/
theorem Logged.value_foldlM {α β : Type} (f : α → β → Logged α) (a : α) (bs : List β) :
  (bs.foldlM f a).value = bs.foldl (fun a b => (f a b).value) a
  := by
  induction bs generalizing a with
  | nil => rfl
  | cons b bs ih => rw [List.foldlM_cons, value_bind, ih, List.foldl_cons]

namespace Workspace

/-! ### What has been written -/

/-- The last entry with a name. -/
def lastNamed (written : List Entry) (name : Text) : Option Entry :=
  (written.filter fun e => e.name = name).getLast?

/-- The names in the order in which they first come. -/
def firstNames (written : List Entry) : List Text :=
  (written.map Entry.name).eraseDups

/-- The last entry of each name, in the order in which the names first come. -/
def held (written : List Entry) : List Entry :=
  (firstNames written).filterMap (lastNamed written)

theorem lastNamed_append (xs ys : List Entry) (name : Text) :
  lastNamed (xs ++ ys) name = (lastNamed ys name).or (lastNamed xs name)
  := by
  rw [lastNamed, List.filter_append, List.getLast?_append]
  rfl

theorem lastNamed_singleton (e : Entry) (name : Text) :
  lastNamed [e] name = if e.name = name then some e else none
  := by
  by_cases h : e.name = name <;> simp [lastNamed, h]

theorem lastNamed_concat (written : List Entry) (e : Entry) (name : Text) :
  lastNamed (written ++ [e]) name = if e.name = name then some e else lastNamed written name
  := by
  rw [lastNamed_append, lastNamed_singleton]
  split <;> rfl

theorem lastNamed_eq_none_iff {written : List Entry} {name : Text} :
  lastNamed written name = none ↔ name ∉ written.map Entry.name
  := by
  simp [lastNamed]

theorem mem_of_lastNamed {written : List Entry} {name : Text} {e : Entry}
    (h : lastNamed written name = some e) :
  e ∈ written ∧ e.name = name
  := by
  have hmem := List.mem_of_getLast? h
  simpa using hmem

theorem eraseDups_concat (names : List Text) (name : Text) :
  (names ++ [name]).eraseDups
    = if name ∈ names then names.eraseDups else names.eraseDups ++ [name]
  := by
  rw [List.eraseDups_append]
  by_cases h : name ∈ names <;> simp [List.removeAll, h, List.eraseDups_cons]

theorem firstNames_concat (written : List Entry) (e : Entry) :
  firstNames (written ++ [e])
    = if e.name ∈ written.map Entry.name then firstNames written
      else firstNames written ++ [e.name]
  := by
  rw [firstNames, List.map_append, List.map_singleton, eraseDups_concat]
  rfl

theorem mem_firstNames_iff {written : List Entry} {name : Text} :
  name ∈ firstNames written ↔ name ∈ written.map Entry.name
  := by
  induction written using List.reverseRecOn with
  | nil => exact Iff.rfl
  | append_singleton written e ih =>
    rw [firstNames_concat, List.map_append, List.mem_append, List.map_singleton,
      List.mem_singleton]
    split
    · rename_i h
      rw [ih, iff_self_or]
      rintro rfl
      exact h
    · rw [List.mem_append, List.mem_singleton, ih]

theorem nodup_firstNames (written : List Entry) :
  (firstNames written).Nodup
  := by
  induction written using List.reverseRecOn with
  | nil => exact List.nodup_nil
  | append_singleton written e ih =>
    rw [firstNames_concat]
    split
    · exact ih
    · rename_i h
      rw [← List.concat_eq_append, List.nodup_concat]
      exact ⟨mt mem_firstNames_iff.mp h, ih⟩

/-! ### One write -/

/-- A write tells the tokens of the entry it replaces. -/
theorem insert_fst (w : Workspace) (file : Entry) :
  (w.insert file).1 = (w.get? file.name).map Entry.tokens
  := by
  rw [insert, get?]
  cases w.positions[file.name]? <;> rfl

/-- The workspace holds what was written: its positions are those of the names of its files,
the names stand in the order of their first entries, and each file is the last of its name. -/
structure Tracks (w : Workspace) (written : List Entry) : Prop where
  position_iff : ∀ (name : Text) (i : Nat),
    w.positions[name]? = some i ↔ w.files[i]?.map Entry.name = some name
  names : w.files.toList.map Entry.name = firstNames written
  last : ∀ (i : Nat) (e : Entry), w.files[i]? = some e → lastNamed written e.name = some e

theorem tracks_empty (budget : Budget) :
  Tracks { budget := budget } []
  where
  position_iff := by simp
  names := rfl
  last := by simp

namespace Tracks

variable {w : Workspace} {written : List Entry} (h : w.Tracks written)

include h

theorem mem_iff (name : Text) :
  name ∈ written.map Entry.name ↔ ∃ i, w.positions[name]? = some i
  := by
  rw [← mem_firstNames_iff, ← h.names, List.mem_iff_getElem?]
  apply exists_congr
  intro i
  rw [h.position_iff, List.getElem?_map, Array.getElem?_toList]

/-- An entry in the place of one with its name leaves the names as they are. -/
theorem map_name_setIfInBounds {file : Entry} {i : Nat}
    (hi : w.positions[file.name]? = some i) (j : Nat) :
  (w.files.setIfInBounds i file)[j]?.map Entry.name = w.files[j]?.map Entry.name
  := by
  rw [Array.getElem?_setIfInBounds]
  split
  · rename_i hij
    obtain rfl := hij
    rw [h.position_iff] at hi
    obtain ⟨old, hold, -⟩ := Option.map_eq_some_iff.mp hi
    rw [if_pos (Array.getElem?_eq_some_iff.mp hold).1, hi]
    rfl
  · rfl

theorem replace {file : Entry} {i : Nat} (hi : w.positions[file.name]? = some i) :
  Tracks { w with files := w.files.setIfInBounds i file } (written ++ [file])
  where
  position_iff := by
    intro name j
    rw [h.map_name_setIfInBounds hi, h.position_iff]
  names := by
    rw [firstNames_concat, if_pos ((h.mem_iff _).mpr ⟨i, hi⟩), ← h.names]
    apply List.ext_getElem?
    intro j
    rw [List.getElem?_map, List.getElem?_map, Array.getElem?_toList, Array.getElem?_toList,
      h.map_name_setIfInBounds hi]
  last := by
    intro j e hj
    rw [lastNamed_concat]
    rw [Array.getElem?_setIfInBounds] at hj
    split at hj
    · split at hj
      · obtain rfl := Option.some.inj hj
        rw [if_pos rfl]
      · exact absurd hj (by simp)
    · rename_i hij
      -- a second position of the name would be the first one
      have hname : file.name ≠ e.name := by
        intro hname
        have hpos : w.positions[e.name]? = some j := by
          rw [h.position_iff, hj]
          rfl
        rw [← hname, hi] at hpos
        exact hij (Option.some.inj hpos)
      rw [if_neg hname]
      apply h.last j e hj

theorem push {file : Entry} (hnone : w.positions[file.name]? = none) :
  Tracks
    { w with
      positions := w.positions.insert file.name w.files.size
      files := w.files.push file }
    (written ++ [file])
  where
  position_iff := by
    intro name j
    rw [Std.HashMap.getElem?_insert, Array.getElem?_push]
    by_cases hname : file.name = name
    · obtain rfl := hname
      rw [if_pos (beq_self_eq_true _), Option.some_inj]
      split
      · rename_i hj
        simp [hj]
      · rename_i hj
        rw [← h.position_iff, hnone]
        simp [Ne.symm hj]
    · rw [if_neg (by simpa using hname), h.position_iff]
      split
      · rename_i hj
        obtain rfl := hj
        simp [hname]
      · rfl
  names := by
    have hnew : file.name ∉ written.map Entry.name := by
      rw [h.mem_iff, hnone]
      simp
    rw [firstNames_concat, if_neg hnew, Array.toList_push, List.map_append, h.names]
    rfl
  last := by
    intro j e hj
    rw [lastNamed_concat]
    rw [Array.getElem?_push] at hj
    split at hj
    · obtain rfl := Option.some.inj hj
      rw [if_pos rfl]
    · have hname : file.name ≠ e.name := by
        intro hname
        have hpos : w.positions[e.name]? = some j := by
          rw [h.position_iff, hj]
          rfl
        rw [← hname, hnone] at hpos
        simp at hpos
      rw [if_neg hname]
      apply h.last j e hj

/-- After a write, the workspace holds what was written before and the new entry. -/
theorem insert (file : Entry) :
  (w.insert file).2.Tracks (written ++ [file])
  := by
  rw [Workspace.insert]
  split
  · rename_i i hi
    exact h.replace hi
  · rename_i hnone
    exact h.push hnone

/-- Of each name the workspace holds the last entry written. -/
theorem get?_eq (name : Text) :
  w.get? name = lastNamed written name
  := by
  rw [get?]
  cases hpos : w.positions[name]? with
  | none =>
    symm
    rw [Option.bind_none, lastNamed_eq_none_iff, h.mem_iff, hpos]
    simp
  | some i =>
    obtain ⟨e, he, rfl⟩ := Option.map_eq_some_iff.mp ((h.position_iff name i).mp hpos)
    rw [Option.bind_some, he, h.last i e he]

/-- The entries of the workspace are a function of what was written. -/
theorem toList_files :
  w.files.toList = held written
  := by
  have hlast : ∀ e ∈ w.files.toList, (lastNamed written ∘ Entry.name) e = some e := by
    intro e he
    obtain ⟨i, hi⟩ := List.mem_iff_getElem?.mp he
    rw [Array.getElem?_toList] at hi
    apply h.last i e hi
  rw [held, ← h.names, List.filterMap_map, List.filterMap_congr hlast, List.filterMap_some]

end Tracks

/-! ### Any number of writes -/

/-- Puts files in, one after another. -/
def insertAll (w : Workspace) (files : List Entry) : Workspace :=
  files.foldl (fun w file => (w.insert file).2) w

theorem Tracks.insertAll {w : Workspace} {written : List Entry} (h : w.Tracks written)
    (files : List Entry) :
  (w.insertAll files).Tracks (written ++ files)
  := by
  induction files generalizing w written with
  | nil => rwa [List.append_nil]
  | cons file files ih =>
    rw [← List.singleton_append, ← List.append_assoc]
    apply ih (h.insert file)

theorem budget_insertAll (w : Workspace) (files : List Entry) :
  (w.insertAll files).budget = w.budget
  := by
  induction files generalizing w with
  | nil => rfl
  | cons file files ih =>
    have hone : (w.insert file).2.budget = w.budget := by
      rw [insert]
      split <;> rfl
    rw [← hone, ← ih (w.insert file).2]
    rfl

theorem value_seed (w : Workspace) (files : List Entry) :
  (w.seed files).value = w.insertAll files
  := by
  rw [seed, Logged.value_foldlM]
  have hone : ∀ (w : Workspace) (file : Entry), (w.seedOne file).value = (w.insert file).2 := by
    intro w file
    rw [seedOne]
    obtain ⟨previous, next⟩ := w.insert file
    cases previous <;> rfl
  simp only [hone]
  rfl

theorem value_override (w : Workspace) (buffers : List Buffer) :
  (w.override buffers).value = w.insertAll (buffers.map Buffer.entry)
  := by
  rw [override, Logged.value_foldlM]
  have hone : ∀ (w : Workspace) (buffer : Buffer),
      (w.overrideOne buffer).value = (w.insert buffer.entry).2 := by
    intro w buffer
    rw [overrideOne]
    obtain ⟨previous, next⟩ := w.insert buffer.entry
    cases previous <;> rfl
  simp only [hone]
  rw [insertAll, List.foldl_map]

theorem value_report (w : Workspace) :
  w.report.value = Report.ofEntries w.files.toList w.budget
  := rfl

/-- A way of writing to a workspace. -/
inductive Operation where
  | insert (file : Entry)
  | seed (files : List Entry)
  | override (buffers : List Buffer)

namespace Operation

/-- The workspace after an operation. -/
def run (w : Workspace) : Operation → Workspace
  | .insert file => (w.insert file).2
  | .seed files => (w.seed files).value
  | .override buffers => (w.override buffers).value

/-- The entries an operation writes, in order. -/
def entries : Operation → List Entry
  | .insert file => [file]
  | .seed files => files
  | .override buffers => buffers.map Buffer.entry

theorem run_eq_insertAll (w : Workspace) (op : Operation) :
  op.run w = w.insertAll op.entries
  := by
  cases op with
  | insert file => rfl
  | seed files => exact value_seed w files
  | override buffers => exact value_override w buffers

theorem foldl_run (w : Workspace) (ops : List Operation) :
  ops.foldl run w = w.insertAll (ops.flatMap entries)
  := by
  induction ops generalizing w with
  | nil => rfl
  | cons op ops ih =>
    rw [List.foldl_cons, ih, run_eq_insertAll, List.flatMap_cons, insertAll, insertAll,
      insertAll, List.foldl_append]

end Operation

/-- The workspace is the map that the entries written make, one after another, where the last
one of a name wins. -/
structure Refines (w : Workspace) (budget : Budget) (written : List Entry) : Prop where
  /-- The positions are those of the names, and there are no others. -/
  position_iff : ∀ (name : Text) (i : Nat),
    w.positions[name]? = some i ↔ w.files[i]?.map Entry.name = some name
  names_nodup : (w.files.toList.map Entry.name).Nodup
  get?_eq : ∀ name : Text, w.get? name = lastNamed written name
  /-- A write tells the tokens that a look-up would have told before it. -/
  insert_fst : ∀ file : Entry, (w.insert file).1 = (w.get? file.name).map Entry.tokens
  names_eq : w.files.toList.map Entry.name = firstNames written
  report_eq : w.report.value =
    { files := w.files.toList
      total := (w.files.toList.map Entry.tokens).sum
      limit := budget.limit
      remaining := budget.remaining (w.files.toList.map Entry.tokens).sum }

/-- After any operations in any order, a workspace is the map that their entries make. -/
theorem refines_foldl_run (budget : Budget) (ops : List Operation) :
  Refines (ops.foldl Operation.run { budget := budget }) budget
    (ops.flatMap Operation.entries)
  := by
  rw [Operation.foldl_run]
  have h := (tracks_empty budget).insertAll (ops.flatMap Operation.entries)
  rw [List.nil_append] at h
  exact {
    position_iff := h.position_iff
    names_nodup := by
      rw [h.names]
      apply nodup_firstNames
    get?_eq := h.get?_eq
    insert_fst := insert_fst _
    names_eq := h.names
    report_eq := by
      rw [value_report, budget_insertAll]
      rfl }

/-! ### Buffers over files -/

/-- The report is on what the files and then the buffers write. -/
theorem value_aggregate (disk : List Entry) (buffers : List Buffer) (budget : Budget) :
  (aggregate disk buffers budget).value
    = Report.ofEntries (held (disk ++ buffers.map Buffer.entry)) budget
  := by
  have h := ((tracks_empty budget).insertAll disk).insertAll (buffers.map Buffer.entry)
  rw [List.nil_append] at h
  rw [aggregate, Logged.value_bind, Logged.value_bind, value_seed, value_override, value_report,
    budget_insertAll, budget_insertAll, h.toList_files]

/-- Two entries of one name, which are the same unless the name is that of a buffer. -/
def AgreeOutside (buffers : List Buffer) (a b : Entry) : Prop :=
  a.name = b.name ∧ (a.name ∉ buffers.map Buffer.name → a = b)

/-- What is held depends on the order of the names and on the last entry of each. -/
theorem held_congr {xs ys : List Entry} (hnames : xs.map Entry.name = ys.map Entry.name)
    (hlast : ∀ name, lastNamed xs name = lastNamed ys name) :
  held xs = held ys
  := by
  rw [held, held, firstNames, firstNames, hnames, funext hlast]

theorem map_name_entry (buffers : List Buffer) :
  (buffers.map Buffer.entry).map Entry.name = buffers.map Buffer.name
  := by
  rw [List.map_map]
  rfl

theorem lastNamed_eq_of_agreeOutside {buffers : List Buffer} {disk₁ disk₂ : List Entry}
    (agree : List.Forall₂ (AgreeOutside buffers) disk₁ disk₂) {name : Text}
    (hname : name ∉ buffers.map Buffer.name) :
  lastNamed disk₁ name = lastNamed disk₂ name
  := by
  have hfilter : disk₁.filter (fun e => e.name = name) = disk₂.filter (fun e => e.name = name) := by
    induction agree with
    | nil => rfl
    | @cons a b as bs hab _ ih =>
      obtain ⟨hsame, heq⟩ := hab
      by_cases ha : a.name = name
      · rw [heq (ha ▸ hname), List.filter_cons, List.filter_cons, ih]
      · rw [List.filter_cons_of_neg (by simpa using ha),
          List.filter_cons_of_neg (by simpa using hsame ▸ ha), ih]
  rw [lastNamed, hfilter, lastNamed]

theorem aggregate_congr {buffers : List Buffer} {disk₁ disk₂ : List Entry}
    (agree : List.Forall₂ (AgreeOutside buffers) disk₁ disk₂) (budget : Budget) :
  (aggregate disk₁ buffers budget).value = (aggregate disk₂ buffers budget).value
  := by
  have hnames : disk₁.map Entry.name = disk₂.map Entry.name := by
    induction agree with
    | nil => rfl
    | cons hab _ ih => rw [List.map_cons, List.map_cons, hab.1, ih]
  rw [value_aggregate, value_aggregate]
  congr 1
  apply held_congr
  · rw [List.map_append, List.map_append, hnames]
  · intro name
    rw [lastNamed_append, lastNamed_append]
    by_cases hname : name ∈ buffers.map Buffer.name
    · cases hlast : lastNamed (buffers.map Buffer.entry) name with
      | none =>
        rw [lastNamed_eq_none_iff, map_name_entry] at hlast
        exact absurd hname hlast
      | some e => rfl
    · rw [lastNamed_eq_of_agreeOutside agree hname]

/-- Of each name the last entry is held, and no other. -/
theorem filter_held (written : List Entry) (name : Text) :
  (held written).filter (fun e => e.name = name) = (lastNamed written name).toList
  := by
  have hfilter : (held written).filter (fun e => e.name = name)
      = ((firstNames written).filter (· = name)).filterMap (lastNamed written) := by
    rw [held, List.filter_filterMap, List.filterMap_filter]
    apply List.filterMap_congr
    intro x _
    cases hlast : lastNamed written x with
    | none => simp
    | some e =>
      obtain ⟨-, rfl⟩ := mem_of_lastNamed hlast
      by_cases he : e.name = name <;> simp [he]
  rw [hfilter, List.filter_eq]
  by_cases hname : name ∈ firstNames written
  · rw [List.count_eq_one_of_mem (nodup_firstNames written) hname, List.replicate_one]
    cases hlast : lastNamed written name <;> simp [hlast]
  · rw [List.count_eq_zero_of_not_mem hname]
    rw [mem_firstNames_iff, ← lastNamed_eq_none_iff] at hname
    rw [hname]
    rfl

theorem lastNamed_entry (buffers : List Buffer) (name : Text) :
  lastNamed (buffers.map Buffer.entry) name
    = ((buffers.filter fun b => b.name = name).getLast?).map Buffer.entry
  := by
  rw [lastNamed, List.filter_map, List.getLast?_map]
  rfl

/-- The report does not depend on what the disk has under the names of buffers, and tells of
each such name what the last buffer with it costs. -/
theorem buffers_win {buffers : List Buffer} {disk₁ disk₂ : List Entry}
    (agree : List.Forall₂ (AgreeOutside buffers) disk₁ disk₂) (budget : Budget) :
  (aggregate disk₁ buffers budget).value = (aggregate disk₂ buffers budget).value
    ∧ ∀ name ∈ buffers.map Buffer.name,
        ∃ b, (buffers.filter fun b => b.name = name).getLast? = some b
          ∧ (aggregate disk₁ buffers budget).value.files.filter (fun e => e.name = name)
            = [.ofName name (countText b.text)]
  := by
  constructor
  · apply aggregate_congr agree
  · intro name hname
    cases hlast : (buffers.filter fun b => b.name = name).getLast? with
    | none =>
      rw [List.getLast?_eq_none_iff, List.filter_eq_nil_iff] at hlast
      obtain ⟨b, hb, rfl⟩ := List.mem_map.mp hname
      exact absurd (decide_eq_true rfl) (hlast b hb)
    | some b =>
      have hb : b.name = name := by
        simpa using (List.mem_filter.mp (List.mem_of_getLast? hlast)).2
      use b, rfl
      rw [value_aggregate, Report.ofEntries, filter_held, lastNamed_append, lastNamed_entry, hlast,
        ← hb]
      rfl

theorem buffers_win_twice :
  List.Forall₂ (AgreeOutside [⟨['a'], "x=1".toList⟩, ⟨['a'], "y".toList⟩])
      [⟨['a'], 50, none⟩, ⟨['b'], 10, none⟩, ⟨['a'], 7, some ⟨['a']⟩⟩]
      [⟨['a'], 1, some ⟨['c']⟩⟩, ⟨['b'], 10, none⟩, ⟨['a'], 2, none⟩]
    ∧ (aggregate [⟨['a'], 50, none⟩, ⟨['b'], 10, none⟩, ⟨['a'], 7, some ⟨['a']⟩⟩]
          [⟨['a'], "x=1".toList⟩, ⟨['a'], "y".toList⟩] .standard).value
        = (aggregate [⟨['a'], 1, some ⟨['c']⟩⟩, ⟨['b'], 10, none⟩, ⟨['a'], 2, none⟩]
            [⟨['a'], "x=1".toList⟩, ⟨['a'], "y".toList⟩] .standard).value
    ∧ (aggregate [⟨['a'], 50, none⟩, ⟨['b'], 10, none⟩, ⟨['a'], 7, some ⟨['a']⟩⟩]
          [⟨['a'], "x=1".toList⟩, ⟨['a'], "y".toList⟩] .standard).value.files.filter
          (fun e => e.name = ['a'])
        = [.ofName ['a'] (countText "y".toList)]
  := by
  have agree : List.Forall₂ (AgreeOutside [⟨['a'], "x=1".toList⟩, ⟨['a'], "y".toList⟩])
      [⟨['a'], 50, none⟩, ⟨['b'], 10, none⟩, ⟨['a'], 7, some ⟨['a']⟩⟩]
      [⟨['a'], 1, some ⟨['c']⟩⟩, ⟨['b'], 10, none⟩, ⟨['a'], 2, none⟩] :=
    .cons ⟨rfl, fun h => absurd (by decide) h⟩
      (.cons ⟨rfl, fun _ => rfl⟩ (.cons ⟨rfl, fun h => absurd (by decide) h⟩ .nil))
  obtain ⟨hsame, hlast⟩ := buffers_win agree .standard
  obtain ⟨b, hb, hfilter⟩ := hlast ['a'] (by decide)
  obtain rfl := Option.some.inj hb
  exact ⟨agree, hsame, hfilter⟩

end Workspace

end CartTokens
