import CartTokens.Watch
import Mathlib.Data.List.Basic

/-!
# Watching loses no change

A run of the loop is a sequence of moves, each an event that comes in or a step of the loop.
Events may come between any two steps, also while the loop sleeps, drops events or counts.

The demand of a loop is the number of events it has not taken, and one more while it is on its
way to a count.  A change raises the demand by one, and a step only lowers it.  It falls to zero
only where a count begins, and each count takes one from it (`Accounted`).  Hence no loop that
has nothing to do has missed a change, and the counts are at most the changes and one more
(`no_change_lost`).
-/

namespace CartTokens

namespace Watch

namespace Loop

/-! ### Runs -/

/-- What can happen to a loop. -/
inductive Move where
  /-- An event comes in. -/
  | event (e : Event)
  /-- The loop takes its next step. -/
  | step
  deriving DecidableEq

/-- One move.  A loop that waits takes no step as long as there is no event. -/
inductive Step : Loop → Move → Loop → Prop where
  | event (l : Loop) (e : Event) : Step l (.event e) (l.deliver e)
  | step {l : Loop} (busy : l.isIdle = false) : Step l .step l.advance

/-- Any number of moves, one after another. -/
inductive Run : Loop → List Move → Loop → Prop where
  | nil (l : Loop) : Run l [] l
  | cons {l l' l'' : Loop} {m : Move} {ms : List Move} (first : Step l m l')
      (rest : Run l' ms l'') : Run l (m :: ms) l''

/-- A run falls into two at every place. -/
theorem Run.split {l l'' : Loop} {before after : List Move} (h : Run l (before ++ after) l'') :
  ∃ l', Run l before l' ∧ Run l' after l''
  := by
  induction before generalizing l with
  | nil => exact ⟨l, .nil l, h⟩
  | cons m before ih =>
    cases h with
    | cons first rest =>
      obtain ⟨l', hbefore, hafter⟩ := ih rest
      exact ⟨l', .cons first hbefore, hafter⟩

/-- That a file is looked at changes nothing, so the same loop is reached without it. -/
theorem Run.filter_access {l l' : Loop} {moves : List Move} (h : Run l moves l') :
  Run l (moves.filter (· ≠ .event .access)) l'
  := by
  induction h with
  | nil l => exact .nil l
  | @cons l l' l'' m ms first rest ih =>
    by_cases hm : m = .event .access
    · obtain rfl := hm
      cases first with
      | event => rwa [List.filter_cons_of_neg (by simp)]
    · rw [List.filter_cons_of_pos (by simpa using hm)]
      exact .cons first ih

/-! ### Demand -/

end Loop

/-- The loop is on its way to a count. -/
def Phase.leadsToCount : Phase → Bool
  | .starting => true
  | .counting => false
  | .waiting => false
  | .sleeping => true
  | .draining => true
  | .ready => true

namespace Loop

/-- The counts that may still be due for what has come in. -/
def demand (l : Loop) : Nat :=
  l.queue.length + if l.phase.leadsToCount then 1 else 0

/-- What is known of two loops, the second reached from the first while so many changes came
in. -/
structure Accounted (l l' : Loop) (changes : Nat) : Prop where
  counts_le : l.counts ≤ l'.counts
  /-- Demand is met by counts only. -/
  due : 0 < l.demand → 0 < l'.demand ∨ l.counts < l'.counts
  /-- Each count takes from the demand. -/
  bound : l'.counts + l'.demand ≤ l.counts + l.demand + changes

theorem Accounted.refl (l : Loop) :
  Accounted l l 0
  where
  counts_le := Nat.le_refl _
  due := .inl
  bound := Nat.le_refl _

theorem Accounted.trans {l l' l'' : Loop} {m n : Nat} (h : Accounted l l' m)
    (h' : Accounted l' l'' n) :
  Accounted l l'' (m + n)
  where
  counts_le := Nat.le_trans h.counts_le h'.counts_le
  due := by
    intro hpos
    obtain hpos' | hlt := h.due hpos
    · apply (h'.due hpos').imp_right
      apply Nat.lt_of_le_of_lt h.counts_le
    · right
      apply Nat.lt_of_lt_of_le hlt h'.counts_le
  bound := by
    have hfirst := h.bound
    have hsecond := h'.bound
    omega

/-- The changes among the moves. -/
def changes (moves : List Move) : Nat :=
  moves.count (.event .change)

theorem demand_deliver_change (l : Loop) :
  (l.deliver .change).demand = l.demand + 1
  := by
  rw [deliver, demand, List.length_append, List.length_singleton, Nat.add_right_comm]
  rfl

theorem accounted_deliver_change (l : Loop) :
  Accounted l (l.deliver .change) 1
  where
  counts_le := Nat.le_refl _
  due := by
    intro _
    left
    rw [demand_deliver_change]
    apply Nat.succ_pos
  bound := by
    rw [demand_deliver_change]
    apply Nat.le_refl

theorem accounted_beginCount {l : Loop} (h : l.phase.leadsToCount) :
  Accounted l l.beginCount 0
  where
  counts_le := Nat.le_succ _
  due := fun _ => .inr (Nat.lt_succ_self _)
  bound := by
    have hbefore : l.demand = l.queue.length + 1 := by rw [demand, if_pos h]
    have hafter : l.beginCount.demand = l.queue.length := rfl
    have hcounts : l.beginCount.counts = l.counts + 1 := rfl
    omega

/-- Where no count begins, demand is carried on. -/
theorem accounted_of_counts_eq {l l' : Loop} (hcounts : l'.counts = l.counts)
    (hle : l'.demand ≤ l.demand) (hpos : 0 < l.demand → 0 < l'.demand) :
  Accounted l l' 0
  where
  counts_le := Nat.le_of_eq hcounts.symm
  due := fun h => .inl (hpos h)
  bound := by omega

theorem accounted_advance (l : Loop) :
  Accounted l l.advance 0
  := by
  obtain ⟨phase, queue, counts⟩ := l
  cases phase with
  | starting => exact accounted_beginCount rfl
  | ready => exact accounted_beginCount rfl
  | counting => exact accounted_of_counts_eq rfl (Nat.le_refl _) id
  | sleeping => exact accounted_of_counts_eq rfl (Nat.le_refl _) id
  | waiting =>
    cases queue with
    | nil => exact .refl _
    | cons e queue => exact accounted_of_counts_eq rfl (Nat.le_refl _) id
  | draining =>
    cases queue with
    | nil => exact accounted_of_counts_eq rfl (Nat.le_refl _) id
    | cons e queue =>
      refine accounted_of_counts_eq rfl ?_ ?_
      · apply Nat.le_succ
      · exact fun _ => Nat.succ_pos _

theorem Step.accounted {l l' : Loop} {m : Move} (h : Step l m l') :
  Accounted l l' (changes [m])
  := by
  cases h with
  | event e =>
    cases e with
    | access => exact .refl l
    | change => exact accounted_deliver_change l
  | step => exact accounted_advance l

theorem Run.accounted {l l' : Loop} {moves : List Move} (h : Run l moves l') :
  Accounted l l' (changes moves)
  := by
  induction h with
  | nil l => exact .refl l
  | cons first rest ih =>
    rw [changes, ← List.singleton_append, List.count_append]
    exact first.accounted.trans ih

theorem demand_of_isIdle {l : Loop} (h : l.isIdle) :
  l.demand = 0
  := by
  obtain ⟨hphase, hqueue⟩ : l.phase = .waiting ∧ l.queue = [] := by simpa [isIdle] using h
  rw [demand, hphase, hqueue]
  rfl

/-- After a change, no loop has nothing to do before a count has begun. -/
theorem counts_lt_of_change {l₀ l : Loop} {after : List Move}
    (h : Run l₀ (.event .change :: after) l) (idle : l.isIdle) :
  l₀.counts < l.counts
  := by
  cases h with
  | cons first rest =>
    cases first with
    | event =>
      have hpos : 0 < (l₀.deliver .change).demand := by
        rw [demand_deliver_change]
        apply Nat.succ_pos
      obtain hdue | hlt := rest.accounted.due hpos
      · rw [demand_of_isIdle idle] at hdue
        exact absurd hdue (Nat.lt_irrefl 0)
      · exact hlt

/-- In every run: when the loop has nothing to do, a count has begun after each change that
came in; looks at files have no part in it; and there is at most one count more than
changes. -/
theorem no_change_lost {moves : List Move} {l : Loop} (h : Run {} moves l) :
  (l.isIdle → ∀ before after : List Move, moves = before ++ .event .change :: after →
      ∃ l₀, Run {} before l₀ ∧ Run l₀ (.event .change :: after) l ∧ l₀.counts < l.counts)
    ∧ Run {} (moves.filter (· ≠ .event .access)) l
    ∧ l.counts ≤ 1 + changes moves
  := by
  refine ⟨?_, h.filter_access, ?_⟩
  · rintro idle before after rfl
    obtain ⟨l₀, hbefore, hafter⟩ := h.split
    use l₀, hbefore, hafter
    apply counts_lt_of_change hafter idle
  · have hbound := h.accounted.bound
    rw [show demand {} = 1 from rfl, show counts {} = 0 from rfl, Nat.zero_add] at hbound
    apply Nat.le_trans (Nat.le_add_right _ _) hbound

/-- A change comes in after the queue was found empty and before the second count begins; a
third count follows. -/
theorem no_change_lost_before_count :
  Run {} ([.step, .step, .event .change, .step, .step, .step] ++ .event .change
      :: [.event .access, .step, .step, .step, .step, .step, .step, .step]) ⟨.waiting, [], 3⟩
    ∧ ∃ l₀, Run {} [.step, .step, .event .change, .step, .step, .step] l₀ ∧ l₀.counts < 3
  := by
  have h : Run {} ([.step, .step, .event .change, .step, .step, .step] ++ .event .change
      :: [.event .access, .step, .step, .step, .step, .step, .step, .step])
      ⟨.waiting, [], 3⟩ :=
    .cons (.step rfl) <| .cons (.step rfl) <| .cons (.event _ _) <| .cons (.step rfl) <|
    .cons (.step rfl) <| .cons (.step rfl) <| .cons (.event _ _) <| .cons (.event _ _) <|
    .cons (.step rfl) <| .cons (.step rfl) <| .cons (.step rfl) <| .cons (.step rfl) <|
    .cons (.step rfl) <| .cons (.step rfl) <| .cons (.step rfl) <| .nil _
  obtain ⟨l₀, hbefore, -, hlt⟩ := (no_change_lost h).1 rfl _ _ rfl
  exact ⟨h, l₀, hbefore, hlt⟩

end Loop

end Watch

end CartTokens
