import CartTokens.Survey
import CartTokens.Proofs.Disk
import CartTokens.Proofs.Workspace

/-!
# Deliveries

A walk delivers paths in any order, and one path any number of times.  The entries of the files
are put in order before they are written to the workspace, so two deliveries that hold the same
paths give two ordered lists that match: each entry of one has its match in the other, of the
same path, name and tokens, and entries of one path stand together (`Matches`).  Writing an
entry again changes nothing, so matching lists leave the same names and tokens behind
(`Matches.alike`).

Hence the figures of a report do not depend on the delivery, and of several files of one name
the one with the greatest path is counted (`report_of_delivery`).
-/

namespace CartTokens

/-- The name and the tokens of an entry. -/
def Entry.figures (e : Entry) : Text × Nat :=
  (e.name, e.tokens)

/-- What a report tells apart from the paths. -/
structure Report.Figures where
  files : List (Text × Nat)
  total : Nat
  remaining : Int
  deriving DecidableEq

/-- The figures of a report. -/
def Report.figures (r : Report) : Report.Figures :=
  ⟨r.files.map Entry.figures, r.total, r.remaining⟩

namespace Workspace

/-! ### Entries with the same figures -/

/-- Two lists of entries leave the same names behind, in the same order and with the same
tokens. -/
structure Alike (xs ys : List Entry) : Prop where
  names : firstNames xs = firstNames ys
  last : ∀ name, (lastNamed xs name).map Entry.figures = (lastNamed ys name).map Entry.figures

namespace Alike

theorem refl (xs : List Entry) :
  Alike xs xs
  := ⟨rfl, fun _ => rfl⟩

theorem symm {xs ys : List Entry} (h : Alike xs ys) :
  Alike ys xs
  := ⟨h.names.symm, fun name => (h.last name).symm⟩

theorem trans {xs ys zs : List Entry} (h : Alike xs ys) (h' : Alike ys zs) :
  Alike xs zs
  := ⟨h.names.trans h'.names, fun name => (h.last name).trans (h'.last name)⟩

theorem concat {xs ys : List Entry} (h : Alike xs ys) {a b : Entry} (hab : a.figures = b.figures) :
  Alike (xs ++ [a]) (ys ++ [b])
  where
  names := by
    have hname : a.name = b.name := congrArg Prod.fst hab
    have hmem : a.name ∈ xs.map Entry.name ↔ b.name ∈ ys.map Entry.name := by
      rw [← mem_firstNames_iff, ← mem_firstNames_iff, h.names, hname]
    rw [firstNames_concat, firstNames_concat, h.names, hname]
    simp only [← hname, hmem]
  last := by
    intro name
    have hname : a.name = b.name := congrArg Prod.fst hab
    rw [lastNamed_concat, lastNamed_concat, hname]
    split
    · rw [Option.map_some, Option.map_some, hab]
    · apply h.last

theorem append_right {xs ys : List Entry} (h : Alike xs ys) (zs : List Entry) :
  Alike (xs ++ zs) (ys ++ zs)
  := by
  induction zs using List.reverseRecOn with
  | nil => simpa using h
  | append_singleton zs e ih =>
    rw [← List.append_assoc, ← List.append_assoc]
    apply ih.concat rfl

/-- An entry written again changes nothing. -/
theorem concat_again (xs : List Entry) {a b : Entry} (hab : a.figures = b.figures) :
  Alike (xs ++ [a] ++ [b]) (xs ++ [a])
  where
  names := by
    have hname : b.name = a.name := congrArg Prod.fst hab.symm
    rw [firstNames_concat, if_pos (by simp [hname])]
  last := by
    intro name
    have hname : a.name = b.name := congrArg Prod.fst hab
    rw [lastNamed_concat, lastNamed_concat, hname]
    split
    · rw [Option.map_some, Option.map_some, hab]
    · rfl

theorem map_figures_held {xs ys : List Entry} (h : Alike xs ys) :
  (held xs).map Entry.figures = (held ys).map Entry.figures
  := by
  rw [held, held, List.map_filterMap, List.map_filterMap, h.names, funext h.last]

theorem figures_ofEntries {xs ys : List Entry} (h : Alike xs ys) (budget : Budget) :
  (Report.ofEntries (held xs) budget).figures = (Report.ofEntries (held ys) budget).figures
  := by
  have htotal : ((held xs).map Entry.tokens).sum = ((held ys).map Entry.tokens).sum := by
    have htokens := congrArg (List.map Prod.snd) h.map_figures_held
    rw [List.map_map, List.map_map] at htokens
    exact congrArg List.sum htokens
  rw [Report.figures, Report.figures, Report.ofEntries, Report.ofEntries, htotal]
  congr 1
  exact h.map_figures_held

end Alike

end Workspace

namespace Survey

open Workspace

/-! ### Entries in order -/

theorem precedes_refl (a : Entry) :
  precedes a a
  := by
  rw [precedes]
  cases a.path with
  | none => rfl
  | some p => exact Path.isLE_order_of_same (Path.same_iff.mpr rfl)

theorem precedes_trans (a b c : Entry) (hab : precedes a b) (hbc : precedes b c) :
  precedes a c
  := by
  rw [precedes] at *
  cases ha : a.path <;> cases hb : b.path <;> cases hc : c.path <;> simp_all
  exact Std.TransCmp.isLE_trans hab hbc

theorem precedes_total (a b : Entry) :
  precedes a b || precedes b a
  := by
  rw [precedes, precedes]
  cases a.path <;> cases b.path <;> simp
  apply Path.isLE_order_total

theorem pairwise_mergeSort (xs : List Entry) :
  (xs.mergeSort precedes).Pairwise (precedes · ·)
  := List.pairwise_mergeSort precedes_trans precedes_total xs

/-- The last of entries in order comes after all of them. -/
theorem precedes_of_pairwise {xs : List Entry} {a : Entry}
    (h : (xs ++ [a]).Pairwise (precedes · ·)) :
  ∀ b ∈ xs ++ [a], precedes b a
  := by
  intro b hb
  obtain hb | hb := List.mem_append.mp hb
  · exact (List.pairwise_append.mp h).2.2 b hb a (List.mem_singleton_self a)
  · rw [List.mem_singleton.mp hb]
    apply precedes_refl

/-! ### Matching lists -/

/-- Each entry comes at the same place as one of the other list. -/
def Covered (xs ys : List Entry) : Prop :=
  ∀ a ∈ xs, ∃ b ∈ ys, precedes a b ∧ precedes b a

theorem Covered.eq_nil {xs : List Entry} (h : Covered xs []) :
  xs = []
  := by
  rw [List.eq_nil_iff_forall_not_mem]
  intro a ha
  obtain ⟨b, hb, -⟩ := h a ha
  exact absurd hb List.not_mem_nil

/-- Lists in order with entries at the same places, where entries at one place have the same
figures. -/
structure Matches (xs ys : List Entry) : Prop where
  pairwise_left : xs.Pairwise (precedes · ·)
  pairwise_right : ys.Pairwise (precedes · ·)
  covered_left : Covered xs ys
  covered_right : Covered ys xs
  figures_eq : ∀ a ∈ xs, ∀ b ∈ ys, precedes a b → precedes b a → a.figures = b.figures

namespace Matches

variable {xs ys : List Entry} {a b : Entry}

theorem symm (h : Matches xs ys) :
  Matches ys xs
  where
  pairwise_left := h.pairwise_right
  pairwise_right := h.pairwise_left
  covered_left := h.covered_right
  covered_right := h.covered_left
  figures_eq := fun b hb a ha hba hab => (h.figures_eq a ha b hb hab hba).symm

theorem precedes_last (h : Matches (xs ++ [a]) (ys ++ [b])) :
  precedes a b
  := by
  obtain ⟨c, hc, hac, -⟩ := h.covered_left a (by simp)
  exact precedes_trans _ _ _ hac (precedes_of_pairwise h.pairwise_right c hc)

/-- The last entries come at the same place. -/
theorem figures_last (h : Matches (xs ++ [a]) (ys ++ [b])) :
  a.figures = b.figures
  := h.figures_eq a (by simp) b (by simp) h.precedes_last h.symm.precedes_last

/-- If an entry at the place of the last one stands before it, the list matches without the
last one. -/
theorem drop_left (h : Matches (xs ++ [a]) ys) (hagain : ∃ c ∈ xs, precedes a c) :
  Matches xs ys
  where
  pairwise_left := h.pairwise_left.sublist (List.sublist_append_left xs [a])
  pairwise_right := h.pairwise_right
  covered_left := fun c hc => h.covered_left c (List.mem_append_left _ hc)
  covered_right := by
    intro b hb
    obtain ⟨c, hc, hbc, hcb⟩ := h.covered_right b hb
    obtain hc | hc := List.mem_append.mp hc
    · exact ⟨c, hc, hbc, hcb⟩
    · obtain rfl := List.mem_singleton.mp hc
      obtain ⟨e, he, hce⟩ := hagain
      have hec := precedes_of_pairwise h.pairwise_left e (List.mem_append_left _ he)
      exact ⟨e, he, precedes_trans _ _ _ hbc hce, precedes_trans _ _ _ hec hcb⟩
  figures_eq := fun c hc => h.figures_eq c (List.mem_append_left _ hc)

theorem covered_of_alone (h : Matches (xs ++ [a]) (ys ++ [b]))
    (ha : ¬ ∃ c ∈ xs, precedes a c) :
  Covered xs ys
  := by
  intro c hc
  obtain ⟨e, he, hce, hec⟩ := h.covered_left c (List.mem_append_left _ hc)
  obtain he | he := List.mem_append.mp he
  · use e
  · obtain rfl := List.mem_singleton.mp he
    exact absurd ⟨c, hc, precedes_trans _ _ _ h.precedes_last hec⟩ ha

/-- If the last entries are the only ones at their place, the lists match without them. -/
theorem drop_both (h : Matches (xs ++ [a]) (ys ++ [b])) (ha : ¬ ∃ c ∈ xs, precedes a c)
    (hb : ¬ ∃ c ∈ ys, precedes b c) :
  Matches xs ys
  where
  pairwise_left := h.pairwise_left.sublist (List.sublist_append_left xs [a])
  pairwise_right := h.pairwise_right.sublist (List.sublist_append_left ys [b])
  covered_left := h.covered_of_alone ha
  covered_right := h.symm.covered_of_alone hb
  figures_eq := fun c hc e he =>
    h.figures_eq c (List.mem_append_left _ hc) e (List.mem_append_left _ he)

/-- An entry after one at the same place leaves nothing new behind. -/
theorem alike_concat (h : Matches (xs ++ [a]) (ys ++ [b])) (hagain : ∃ c ∈ xs, precedes a c) :
  Alike (xs ++ [a]) xs
  := by
  have hdrop := h.drop_left hagain
  obtain rfl | ⟨xs, e, rfl⟩ := List.eq_nil_or_concat' xs
  · obtain ⟨c, hc, -⟩ := hagain
    exact absurd hc List.not_mem_nil
  · apply Alike.concat_again
    rw [hdrop.figures_last, h.figures_last]

/-- Matching lists leave the same figures behind. -/
theorem alike {xs ys : List Entry} (h : Matches xs ys) :
  Alike xs ys
  := by
  -- from the greatest place down, on both lists at once
  obtain rfl | ⟨xs, a, rfl⟩ := List.eq_nil_or_concat' xs
  · rw [h.covered_right.eq_nil]
    apply Alike.refl
  · obtain rfl | ⟨ys, b, rfl⟩ := List.eq_nil_or_concat' ys
    · rw [h.covered_left.eq_nil]
      apply Alike.refl
    · by_cases ha : ∃ c ∈ xs, precedes a c
      · apply (h.alike_concat ha).trans
        apply (h.drop_left ha).alike
      · by_cases hb : ∃ c ∈ ys, precedes b c
        · apply Alike.trans _ (h.symm.alike_concat hb).symm
          apply (h.symm.drop_left hb).symm.alike
        · apply (h.drop_both ha hb).alike.concat h.figures_last
termination_by xs.length + ys.length

theorem figures_aggregate (h : Matches xs ys) (buffers : List Buffer) (budget : Budget) :
  (aggregate xs buffers budget).value.figures = (aggregate ys buffers budget).value.figures
  := by
  rw [value_aggregate, value_aggregate]
  apply Alike.figures_ofEntries
  apply h.alike.append_right

end Matches

/-! ### Counted files -/

theorem toOption_countFile (d : Disk) (p : Path) :
  (countFile d p).value.toOption
    = (d.read p).toOption.map fun content => .ofPath p (countBytes content)
  := by
  rw [countFile, readFile]
  cases d.read p <;> rfl

/-- The counted files are those that can be read. -/
theorem mem_counted_iff {d : Disk} {paths : List Path} {e : Entry} :
  e ∈ counted d paths
    ↔ ∃ p ∈ paths, ∃ content, d.read p = .ok content ∧ e = .ofPath p (countBytes content)
  := by
  rw [counted, List.mem_filterMap]
  apply exists_congr
  intro p
  rw [and_congr_right_iff]
  intro _
  rw [toOption_countFile]
  cases hread : d.read p with
  | error fault => simp [Except.toOption]
  | ok content => simp [Except.toOption, eq_comm]

/-- A count that is not strict sets apart what cannot be read. -/
theorem value_ofPaths (d : Disk) (paths : List Path) :
  (ofPaths d false paths).value
    = .ok { counts := (counted d paths).mergeSort precedes, errors := failed d paths }
  := rfl

theorem value_reportDelivered (d : Disk) {s : Settings} (lenient : s.strict = false)
    (delivered : List Path) :
  (reportDelivered d s delivered).value
    = .ok
      { report := (Workspace.aggregate ((counted d delivered).mergeSort precedes) s.buffers
          s.budget).value
        errors := failed d delivered }
  := by
  rw [reportDelivered, Logged.value_bind, ofDelivered, Logged.value_bind, lenient, value_ofPaths]
  rfl

/-! ### Deliveries -/

/-- The deliveries hold the same paths, in any order and any number of times. -/
def SamePaths (ps qs : List Path) : Prop :=
  (∀ p ∈ ps, ∃ q ∈ qs, p.same q) ∧ ∀ q ∈ qs, ∃ p ∈ ps, q.same p

/-- Paths with the same components name the same file. -/
def NameFiles (d : Disk) (paths : List Path) : Prop :=
  ∀ p ∈ paths, ∀ q ∈ paths, p.same q → d.read p = d.read q

/-- Only paths that end in a slash or in dots can fail to name the file that their components
name. -/
theorem nameFiles_of_endsInDots {d : Disk} {paths : List Path}
    (h : ∀ p ∈ paths, EndsInDots p.steps → ∀ q ∈ paths, p.same q → d.read p = d.read q) :
  NameFiles d paths
  := by
  intro p hp q hq hpq
  by_cases hpdots : EndsInDots p.steps
  · exact h p hp hpdots q hq hpq
  · by_cases hqdots : EndsInDots q.steps
    · exact (h q hq hqdots p hp (Path.same_symm hpq)).symm
    · exact d.read_eq_of_same hpq hpdots hqdots

theorem NameFiles.mono {d : Disk} {ps qs : List Path} (h : NameFiles d ps)
    (hsubset : ∀ p ∈ qs, p ∈ ps) :
  NameFiles d qs
  := fun p hp q hq => h p (hsubset p hp) q (hsubset q hq)

theorem covered_counted {d : Disk} {ps qs : List Path} (hsame : ∀ p ∈ ps, ∃ q ∈ qs, p.same q)
    (hread : ∀ p ∈ ps, ∀ q ∈ qs, p.same q → d.read p = d.read q) :
  Covered ((counted d ps).mergeSort precedes) ((counted d qs).mergeSort precedes)
  := by
  intro a ha
  obtain ⟨p, hp, content, hcontent, rfl⟩ := mem_counted_iff.mp (List.mem_mergeSort.mp ha)
  obtain ⟨q, hq, hpq⟩ := hsame p hp
  have hq' : d.read q = .ok content := by rw [← hread p hp q hq hpq, hcontent]
  use .ofPath q (countBytes content)
  rw [List.mem_mergeSort, mem_counted_iff]
  exact ⟨⟨q, hq, content, hq', rfl⟩, Path.isLE_order_of_same hpq,
    Path.isLE_order_of_same (Path.same_symm hpq)⟩

/-- Deliveries that hold the same paths give matching lists of counted files. -/
theorem matches_counted {d : Disk} (tree : d.IsTree) {ps qs : List Path} (hsame : SamePaths ps qs)
    (hfiles : NameFiles d (ps ++ qs)) :
  Matches ((counted d ps).mergeSort precedes) ((counted d qs).mergeSort precedes)
  where
  pairwise_left := pairwise_mergeSort _
  pairwise_right := pairwise_mergeSort _
  covered_left := by
    apply covered_counted hsame.1
    intro p hp q hq
    apply hfiles p (List.mem_append_left _ hp) q (List.mem_append_right _ hq)
  covered_right := by
    apply covered_counted hsame.2
    intro q hq p hp
    apply hfiles q (List.mem_append_right _ hq) p (List.mem_append_left _ hp)
  figures_eq := by
    intro a ha b hb hab hba
    obtain ⟨p, hp, content, hcontent, rfl⟩ := mem_counted_iff.mp (List.mem_mergeSort.mp ha)
    obtain ⟨q, hq, content', hcontent', rfl⟩ := mem_counted_iff.mp (List.mem_mergeSort.mp hb)
    have hpq : p.same q := Path.same_of_isLE_order hab hba
    have hread := hfiles p (List.mem_append_left _ hp) q (List.mem_append_right _ hq) hpq
    rw [hcontent, hcontent'] at hread
    obtain rfl := Except.ok.inj hread
    rw [Entry.figures, Entry.figures, Entry.ofPath, Entry.ofPath, tree.fileName_eq hcontent hpq]

end Survey

namespace Walk

theorem sublist_dedup (paths : List Path) :
  (dedup paths).Sublist paths
  := by
  fun_induction dedup paths with
  | case1 p q rest _ ih =>
    apply ih.trans
    apply List.Sublist.cons_cons
    apply List.sublist_cons_self
  | case2 p q rest _ ih => exact ih.cons_cons p
  | case3 paths => exact List.Sublist.refl paths

theorem exists_same_mem_dedup (paths : List Path) :
  ∀ p ∈ paths, ∃ q ∈ dedup paths, p.same q
  := by
  fun_induction dedup paths with
  | case1 p q rest hpq ih =>
    rw [List.forall_mem_cons] at ih
    rw [List.forall_mem_cons, List.forall_mem_cons]
    refine ⟨ih.1, ?_, ih.2⟩
    obtain ⟨r, hr, hpr⟩ := ih.1
    use r, hr
    rw [Path.same_iff] at *
    rw [← hpq, hpr]
  | case2 p q rest _ ih =>
    rw [List.forall_mem_cons]
    constructor
    · use p, List.mem_cons_self
      rw [Path.same_iff]
    · intro r hr
      obtain ⟨t, ht, hrt⟩ := ih r hr
      use t, List.mem_cons_of_mem p ht
  | case3 paths =>
    intro p hp
    use p, hp
    rw [Path.same_iff]

end Walk

namespace Survey

open Workspace

theorem mem_of_mem_normalize {paths : List Path} {p : Path} (h : p ∈ Walk.normalize paths) :
  p ∈ paths
  := by
  rw [← List.mem_mergeSort]
  apply (Walk.sublist_dedup _).subset h

/-- The paths in order, each once, are the paths delivered. -/
theorem samePaths_normalize (paths : List Path) :
  SamePaths paths (Walk.normalize paths)
  := by
  constructor
  · intro p hp
    apply Walk.exists_same_mem_dedup
    rwa [List.mem_mergeSort]
  · intro p hp
    use p, mem_of_mem_normalize hp
    rw [Path.same_iff]

theorem precedes_lastNamed {xs : List Entry} (h : xs.Pairwise (precedes · ·)) {e : Entry}
    {name : Text} (hlast : lastNamed xs name = some e) :
  ∀ a ∈ xs, a.name = name → precedes a e
  := by
  intro a ha hname
  obtain ⟨before, hfilter⟩ := List.getLast?_eq_some_iff.mp hlast
  have hpairwise := h.filter fun e => e.name = name
  rw [hfilter] at hpairwise
  apply precedes_of_pairwise hpairwise
  rw [← hfilter, List.mem_filter]
  exact ⟨ha, decide_eq_true hname⟩

/-- Of several files of one name the last to be written is the one with the greatest path. -/
theorem lastNamed_counted {d : Disk} {delivered : List Path} {p : Path} {content : Bytes}
    (hfiles : NameFiles d delivered) (hp : p ∈ delivered) (hcontent : d.read p = .ok content)
    (greatest : ∀ q ∈ delivered, (d.read q).isOk → q.fileName = p.fileName → (q.order p).isLE) :
  ∃ q ∈ delivered, q.same p
    ∧ lastNamed ((counted d delivered).mergeSort precedes) p.fileName
      = some (.ofPath q (countBytes content))
  := by
  have hmem : .ofPath p (countBytes content) ∈ (counted d delivered).mergeSort precedes := by
    rw [List.mem_mergeSort, mem_counted_iff]
    exact ⟨p, hp, content, hcontent, rfl⟩
  cases hlast : lastNamed ((counted d delivered).mergeSort precedes) p.fileName with
  | none =>
    rw [lastNamed_eq_none_iff] at hlast
    exact absurd (List.mem_map_of_mem hmem) hlast
  | some e =>
    obtain ⟨he, hname⟩ := mem_of_lastNamed hlast
    obtain ⟨q, hq, content', hcontent', rfl⟩ := mem_counted_iff.mp (List.mem_mergeSort.mp he)
    have hpq : (p.order q).isLE := precedes_lastNamed (pairwise_mergeSort _) hlast _ hmem rfl
    have hqp : (q.order p).isLE := by
      apply greatest q hq _ hname
      rw [hcontent']
      rfl
    have hsame : q.same p := Path.same_of_isLE_order hqp hpq
    have hread := hfiles q hq p hp hsame
    rw [hcontent, hcontent'] at hread
    obtain rfl := Except.ok.inj hread
    exact ⟨q, hq, hsame, rfl⟩

/-- In a count that is not strict, deliveries that hold the same paths give the same figures,
which are those of the paths in order, each once; and of several files of one name the one with
the greatest path is counted, unless a buffer has the name. -/
theorem report_of_delivery {d : Disk} (tree : d.IsTree) {s : Settings}
    (lenient : s.strict = false) {delivered delivered' : List Path}
    (hsame : SamePaths delivered delivered')
    (hdots : ∀ p ∈ delivered ++ delivered', EndsInDots p.steps →
      ∀ q ∈ delivered ++ delivered', p.same q → d.read p = d.read q) :
  ∃ r r' : SurveyReport, ∃ survey : Survey,
    (reportDelivered d s delivered).value = .ok r
      ∧ (reportDelivered d s delivered').value = .ok r'
      ∧ r.report.figures = r'.report.figures
      ∧ (ofPaths d false (Walk.normalize delivered)).value = .ok survey
      ∧ r.report.figures = (aggregate survey.counts s.buffers s.budget).value.figures
      ∧ ∀ p ∈ delivered, ∀ content, d.read p = .ok content →
          p.fileName ∉ s.buffers.map Buffer.name →
          (∀ q ∈ delivered, (d.read q).isOk → q.fileName = p.fileName → (q.order p).isLE) →
          ∃ q ∈ delivered, q.same p
            ∧ r.report.files.filter (fun e => e.name = p.fileName)
              = [.ofPath q (countBytes content)]
  := by
  have hfiles := nameFiles_of_endsInDots hdots
  refine ⟨_, _, _, value_reportDelivered d lenient delivered,
    value_reportDelivered d lenient delivered', ?_, value_ofPaths d _, ?_, ?_⟩
  · apply (matches_counted tree hsame hfiles).figures_aggregate
  · apply (matches_counted tree (samePaths_normalize delivered) _).figures_aggregate
    apply hfiles.mono
    intro p hp
    obtain hp | hp := List.mem_append.mp hp
    · apply List.mem_append_left _ hp
    · apply List.mem_append_left _ (mem_of_mem_normalize hp)
  · intro p hp content hcontent hbuffers greatest
    have hfiles' : NameFiles d delivered := hfiles.mono fun _ => List.mem_append_left _
    obtain ⟨q, hq, hqp, hlast⟩ := lastNamed_counted hfiles' hp hcontent greatest
    use q, hq, hqp
    rw [← map_name_entry, ← lastNamed_eq_none_iff] at hbuffers
    rw [value_aggregate, Report.ofEntries, filter_held, lastNamed_append, hbuffers, hlast]
    rfl

/-- Two files of one name in two directories. -/
def twoFiles : Disk where
  items :=
    [([['a']], .directory), ([['b']], .directory), ([['a'], ['x']], .file [0x78]),
      ([['b'], ['x']], .file [0x78, 0x3d, 0x31])]

theorem follow_twoFiles :
  twoFiles.follow Disk.maxLinks [] [['b'], ['x']]
    = .ok ([['b'], ['x']], some (.file [0x78, 0x3d, 0x31]))
  := by
  have hfile : twoFiles.follow Disk.maxLinks [['b'], ['x']] []
      = .ok ([['b'], ['x']], some (.file [0x78, 0x3d, 0x31])) := by
    rw [Disk.follow]
    rfl
  have hdirectory : twoFiles.follow Disk.maxLinks [['b']] [['x']]
      = .ok ([['b'], ['x']], some (.file [0x78, 0x3d, 0x31])) := by
    rw [Disk.follow, if_neg (by decide), if_neg (by decide), if_neg (by decide),
      if_neg (by decide)]
    exact hfile
  rw [Disk.follow, if_neg (by decide), if_neg (by decide), if_neg (by decide),
    if_neg (by decide)]
  exact hdirectory

theorem report_of_delivery_two_files :
  SamePaths [⟨"b/x".toList⟩, ⟨"a//x".toList⟩, ⟨"b/x".toList⟩] [⟨"a/x".toList⟩, ⟨"b/x".toList⟩]
    ∧ ∃ r r' : SurveyReport,
      (reportDelivered twoFiles {} [⟨"b/x".toList⟩, ⟨"a//x".toList⟩, ⟨"b/x".toList⟩]).value = .ok r
        ∧ (reportDelivered twoFiles {} [⟨"a/x".toList⟩, ⟨"b/x".toList⟩]).value = .ok r'
        ∧ r.report.figures = r'.report.figures
        ∧ r.report.files.filter (fun e => e.name = ['x'])
          = [.ofPath ⟨"b/x".toList⟩ (countBytes [0x78, 0x3d, 0x31])]
  := by
  have tree : twoFiles.IsTree := by decide
  have hsame : SamePaths [⟨"b/x".toList⟩, ⟨"a//x".toList⟩, ⟨"b/x".toList⟩]
      [⟨"a/x".toList⟩, ⟨"b/x".toList⟩] := by
    constructor <;> decide
  have hdots : ∀ p ∈ [(⟨"b/x".toList⟩ : Path), ⟨"a//x".toList⟩, ⟨"b/x".toList⟩]
      ++ [⟨"a/x".toList⟩, ⟨"b/x".toList⟩], ¬ EndsInDots p.steps := by
    decide
  have hread : twoFiles.read ⟨"b/x".toList⟩ = .ok [0x78, 0x3d, 0x31] := by
    have hfollow : twoFiles.follow Disk.maxLinks (twoFiles.start ⟨"b/x".toList⟩)
        (Path.steps ⟨"b/x".toList⟩) = .ok ([['b'], ['x']], some (.file [0x78, 0x3d, 0x31])) :=
      follow_twoFiles
    rw [Disk.read, Disk.resolve, if_neg (by decide), if_neg (by decide), hfollow]
    rfl
  have hgreatest : ∀ q ∈ [(⟨"b/x".toList⟩ : Path), ⟨"a//x".toList⟩, ⟨"b/x".toList⟩],
      (q.order ⟨"b/x".toList⟩).isLE := by
    decide
  have honly : ∀ q ∈ [(⟨"b/x".toList⟩ : Path), ⟨"a//x".toList⟩, ⟨"b/x".toList⟩],
      q.same ⟨"b/x".toList⟩ → q = ⟨"b/x".toList⟩ := by
    decide
  obtain ⟨r, r', -, hr, hr', hfigures, -, -, hwins⟩ :=
    report_of_delivery tree (s := {}) rfl hsame fun p hp hend => absurd hend (hdots p hp)
  obtain ⟨q, hq, hqp, hfilter⟩ := hwins ⟨"b/x".toList⟩ (by decide) [0x78, 0x3d, 0x31] hread
    (by decide) fun q hq _ _ => hgreatest q hq
  obtain rfl := honly q hq hqp
  exact ⟨hsame, r, r', hr, hr', hfigures, hfilter⟩

end Survey

end CartTokens
