import CartTokens.Program
import CartTokens.Proofs.Delivery

/-!
# The gate of a budget

What remains of a budget is a signed number of 64 bits, so a total beyond the greatest such
number counts as that number.

* What remains is the limit less the total exactly for the totals up to that number
  (`Budget.remaining_eq_iff`).
* A report is over its budget exactly if its total is above its limit and the limit is below
  that number (`Report.isOverBudget_ofEntries`): no total is above the greatest limit.

A run that counts, and is no watch, ends with the code that the report calls for
(`Program.Counts.code_run`).
-/

namespace CartTokens

/-! ### Reports -/

theorem Budget.remaining_eq_iff (budget : Budget) (total : Nat) :
  budget.remaining total = budget.limit - total ↔ total ≤ maxSigned
  := by
  rw [remaining]
  omega

theorem Budget.remaining_neg_iff (budget : Budget) (total : Nat) :
  budget.remaining total < 0 ↔ budget.limit < total ∧ budget.limit < maxSigned
  := by
  rw [remaining]
  omega

/-- The greatest limit is never exceeded; any other one is exceeded by what is above it. -/
theorem Report.isOverBudget_ofEntries (files : List Entry) (budget : Budget) :
  (ofEntries files budget).isOverBudget
    ↔ budget.limit < (files.map Entry.tokens).sum ∧ budget.limit < maxSigned
  := by
  rw [isOverBudget, decide_eq_true_iff]
  exact budget.remaining_neg_iff _

/-! ### Runs that count -/

theorem Survey.exists_ofEntries_report {d : Disk} {s : Settings} {result : SurveyReport}
    (h : (report d s).value = .ok result) :
  ∃ entries : List Entry, result.report = Report.ofEntries entries s.budget
  := by
  rw [report, Logged.value_bind] at h
  split at h
  · contradiction
  · rw [reportDelivered, Logged.value_bind] at h
    split at h
    · contradiction
    · rw [Logged.value_bind, Logged.value_pure, Except.ok.injEq] at h
      rw [← h]
      exact ⟨_, Workspace.value_aggregate _ _ _⟩

namespace Program

/-- What the arguments settle of the budget and of watching. -/
theorem of_settings {a : Arguments} {machineThreads : Nat} {s : Settings}
    (h : a.settings machineThreads = .ok s) :
  Budget.ofNat a.budget = .ok s.budget ∧ s.watch = a.watch
  := by
  rw [Arguments.settings] at h
  cases hb : Budget.ofNat a.budget with
  | error fault =>
    rw [hb] at h
    contradiction
  | ok budget =>
    rw [hb] at h
    cases h
    exact ⟨rfl, rfl⟩

/-- A buffer from the standard input changes neither. -/
theorem of_load {a : Arguments} {machineThreads : Nat} {stdin : Bytes} {s : Settings}
    (h : (load a machineThreads stdin).value = .ok s) :
  Budget.ofNat a.budget = .ok s.budget ∧ s.watch = a.watch
  := by
  rw [load] at h
  split at h
  · rename_i settings _ hsettings _
    cases h
    exact of_settings (s := settings) hsettings
  · exact of_settings h

/-- The command line asks for a count that is no watch, and the count succeeds with the
report. -/
structure Counts (d : Disk) (machineThreads : Nat) (stdin : Bytes) (environment : Option Text)
    (words : List Text) (a : Arguments) (r : Report) : Prop where
  parsed : parseArguments environment words = .ok a
  no_command : a.command = none
  no_watch : a.watch = false
  reported : ∃ s : Settings, (load a machineThreads stdin).value = .ok s
    ∧ ∃ errors : List (Path × Failure), (Survey.report d s).value = .ok ⟨r, errors⟩

namespace Counts

variable {d : Disk} {machineThreads : Nat} {stdin : Bytes} {environment : Option Text}
  {words : List Text} {a : Arguments} {r : Report}

/-- The report is one on files under the budget asked for. -/
theorem exists_ofEntries (h : Counts d machineThreads stdin environment words a r) :
  ∃ (files : List Entry) (budget : Budget), Budget.ofNat a.budget = .ok budget
    ∧ r = Report.ofEntries files budget
  := by
  obtain ⟨s, hload, errors, hreport⟩ := h.reported
  obtain ⟨files, hfiles⟩ := Survey.exists_ofEntries_report hreport
  exact ⟨files, s.budget, (of_load hload).1, hfiles⟩

/-- The run ends with the code that the report calls for. -/
theorem code_run (h : Counts d machineThreads stdin environment words a r) :
  (run d machineThreads stdin environment words).code
    = if a.denyOverflow && r.isOverBudget then exitOverBudget else exitSuccess
  := by
  obtain ⟨s, hload, errors, hreport⟩ := h.reported
  have hwatch : s.watch = false := (of_load hload).2.trans h.no_watch
  have hcount : (count d machineThreads stdin a).value = .ok (countOutcome d a r) := by
    rw [count, Logged.value_bind, hload]
    simp only [hwatch, Bool.false_eq_true, if_false, Logged.value_bind, hreport]
    rfl
  rw [run, h.parsed]
  simp only [perform, h.no_command, outcome, hcount]
  rfl

end Counts

/-! ### Runs on an empty disk -/

theorem resolve_defaultRoot :
  Disk.resolve {} Arguments.defaultRoot = .ok ([], .directory)
  := by
  have hfollow : Disk.follow {} Disk.maxLinks (Disk.start {} Arguments.defaultRoot)
      Arguments.defaultRoot.steps = .ok ([], some .directory) := by
    have hsteps : Arguments.defaultRoot.steps = [['.']] := rfl
    rw [hsteps, Disk.follow, if_neg (by decide), if_pos rfl, Disk.follow]
    rfl
  rw [Disk.resolve, if_neg (by decide), if_neg (by decide), hfollow]

/-- On an empty disk the report is on the buffers alone. -/
theorem report_of_empty {s : Settings} (hroots : s.walk.roots = [Arguments.defaultRoot])
    (hdepth : s.walk.maxDepth = none) (lenient : s.strict = false) :
  (Survey.report {} s).value
    = .ok ⟨Report.ofEntries (Workspace.held (s.buffers.map Buffer.entry)) s.budget, []⟩
  := by
  have hbelow : ∀ position root, (Walk.below {} s.walk 4 position [] root).value = [] := by
    intro position root
    rw [Walk.below, Walk.isDeepEnough, hdepth]
    rfl
  have hroot : (Walk.ofRoot {} s.walk Arguments.defaultRoot).value = [] := by
    rw [Walk.ofRoot, if_neg (by decide), resolve_defaultRoot]
    exact hbelow _ _
  have hwalk : (Walk.files {} s.walk).value = .ok [] := by
    have hfind : [Arguments.defaultRoot].find? (fun root => !Disk.isPresent {} root) = none := by
      rw [List.find?_singleton, Disk.isPresent, resolve_defaultRoot]
      rfl
    rw [Walk.files, hroots, hfind]
    simp only [List.mapM_cons, List.mapM_nil, Logged.value_bind, Logged.value_pure, hroot]
    rfl
  rw [Survey.report, Logged.value_bind, hwalk]
  apply (Survey.value_reportDelivered {} lenient []).trans
  rw [Workspace.value_aggregate, Survey.counted, List.filterMap_nil, List.mergeSort_nil]
  rfl

/-! ### The gate -/

/-- The gate of a budget: what remains is exact for totals up to the greatest signed number, and
a report is over its budget if its total is above its limit, unless the limit is that number.
A run that counts ends accordingly. -/
theorem budget_gate (files : List Entry) (budget : Budget) :
  ((Report.ofEntries files budget).remaining = budget.limit - (files.map Entry.tokens).sum
    ↔ (files.map Entry.tokens).sum ≤ maxSigned)
  ∧ ((Report.ofEntries files budget).isOverBudget
    ↔ budget.limit < (files.map Entry.tokens).sum ∧ budget.limit < maxSigned)
  ∧ ∀ (d : Disk) (machineThreads : Nat) (stdin : Bytes) (environment : Option Text)
      (words : List Text) (a : Arguments) (r : Report),
    Counts d machineThreads stdin environment words a r →
      (run d machineThreads stdin environment words).code
        = if a.denyOverflow ∧ r.limit < r.total ∧ r.limit < maxSigned then exitOverBudget
          else exitSuccess
  := by
  refine ⟨budget.remaining_eq_iff _, Report.isOverBudget_ofEntries files budget, ?_⟩
  intro d machineThreads stdin environment words a r h
  obtain ⟨files, budget, -, rfl⟩ := h.exists_ofEntries
  rw [h.code_run]
  apply if_congr _ rfl rfl
  rw [Bool.and_eq_true, Report.isOverBudget_ofEntries]
  exact Iff.rfl

/-- A total above the greatest limit is not told from one that meets it. -/
theorem budget_gate_greatest_limit :
  ∃ budget : Budget, Budget.ofNat maxSigned = .ok budget
    ∧ (Report.ofEntries [.ofName "a.p8".toList (maxSigned + 1)] budget).total ≤ maxUnsigned
    ∧ budget.limit < (Report.ofEntries [.ofName "a.p8".toList (maxSigned + 1)] budget).total
    ∧ (Report.ofEntries [.ofName "a.p8".toList (maxSigned + 1)] budget).remaining = 0
    ∧ ¬ (Report.ofEntries [.ofName "a.p8".toList (maxSigned + 1)] budget).isOverBudget
  := by
  have haccepted : Budget.ofNat maxSigned = .ok ⟨maxSigned, by decide, le_rfl⟩ := by
    rw [Budget.ofNat, dif_pos (by decide), dif_pos le_rfl]
  exact ⟨_, haccepted, by decide, by decide, by decide, by decide⟩

theorem budget_gate_stdin :
  ∃ (a : Arguments) (r : Report),
    Counts {} 1 [0x78, 0x3d, 0x31] none
        (["--stdin-name", "a.p8", "--budget", "2", "--deny-overflow"].map String.toList) a r
      ∧ a.denyOverflow ∧ r.limit < r.total ∧ r.limit < maxSigned
      ∧ (run {} 1 [0x78, 0x3d, 0x31] none
        (["--stdin-name", "a.p8", "--budget", "2", "--deny-overflow"].map String.toList)).code
        = exitOverBudget
  := by
  have hcounts : Counts {} 1 [0x78, 0x3d, 0x31] none
      (["--stdin-name", "a.p8", "--budget", "2", "--deny-overflow"].map String.toList) _ _ :=
    ⟨rfl, rfl, rfl, _, rfl, _, report_of_empty rfl rfl rfl⟩
  have hover : 2 < (Report.ofEntries (Workspace.held
      [.ofName "a.p8".toList (countText (Utf8.decode [0x78, 0x3d, 0x31]))])
      ⟨2, by decide, by decide⟩).total := by
    decide +kernel
  refine ⟨_, _, hcounts, rfl, hover, by decide, ?_⟩
  rw [(budget_gate [] ⟨2, by decide, by decide⟩).2.2 _ _ _ _ _ _ _ hcounts]
  exact if_pos ⟨rfl, hover, by decide⟩

end Program

end CartTokens
