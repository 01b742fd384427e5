import CartTokens.Survey

/-!
# Watching

A loop that counts again after changes.  It waits for an event, sleeps for a while, drops the
events that have come in the meantime until there are none, and counts.  Events may come at any
time, also between the last look at the queue and the count.  That a file was only looked at is
no reason to count again, so such events never reach the queue of the loop.
-/

namespace CartTokens

namespace Watch

/-! ### The loop -/

/-- What is told of a file. -/
inductive Event where
  | access
  | change
  deriving DecidableEq, Repr

/-- What the loop is doing. -/
inductive Phase where
  | starting
  | counting
  | waiting
  | sleeping
  | draining
  /-- The queue was found empty, and the count has not begun. -/
  | ready
  deriving DecidableEq, Repr

/-- The state of the loop: what it is doing, the events it has not taken yet, and how often it has
begun to count. -/
structure Loop where
  phase : Phase := .starting
  queue : List Event := []
  counts : Nat := 0
  deriving DecidableEq, Repr

namespace Loop

/-- An event comes in. -/
def deliver (l : Loop) : Event → Loop
  | .access => l
  | .change => { l with queue := l.queue ++ [.change] }

/-- The loop begins to count. -/
def beginCount (l : Loop) : Loop :=
  { l with phase := .counting, counts := l.counts + 1 }

/-- The next step of the loop; while it waits without events it stays as it is. -/
def advance (l : Loop) : Loop :=
  match l.phase, l.queue with
  | .starting, _ => l.beginCount
  | .counting, _ => { l with phase := .waiting }
  | .waiting, [] => l
  | .waiting, _ :: queue => { l with phase := .sleeping, queue := queue }
  | .sleeping, _ => { l with phase := .draining }
  | .draining, [] => { l with phase := .ready }
  | .draining, _ :: queue => { l with queue := queue }
  | .ready, _ => l.beginCount

/-- So many steps of the loop. -/
def advances : Nat → Loop → Loop
  | 0, l => l
  | n + 1, l => advances n l.advance

/-- The loop once it waits again: taking an event, sleeping, dropping the other events, counting
and going back to waiting, after the first count if that is still to be made. -/
def settle (l : Loop) : Loop :=
  l.advances (l.queue.length + 6)

/-- The loop waits and has nothing to do. -/
def isIdle (l : Loop) : Bool :=
  l.phase = .waiting ∧ l.queue = []

/-- A bound on the steps until the loop has nothing to do. -/
def stepsLeft (l : Loop) : Nat :=
  match l.phase, l.queue with
  | .waiting, [] => 0
  | .counting, [] => 1
  | .waiting, queue => queue.length + 4
  | .counting, queue => queue.length + 5
  | .starting, queue => queue.length + 6
  | .sleeping, queue => queue.length + 4
  | .draining, queue => queue.length + 3
  | .ready, [] => 2
  | .ready, queue => queue.length + 6

/-- A loop with nothing to do stays as it is. -/
theorem advance_of_isIdle (l : Loop) (idle : l.isIdle) :
  l.advance = l
  := by
  obtain ⟨phase, queue, counts⟩ := l
  obtain ⟨rfl, rfl⟩ : phase = .waiting ∧ queue = [] := by simpa [isIdle] using idle
  rfl

/-- Each step of a loop with something to do brings it nearer to having nothing to do. -/
theorem stepsLeft_advance (l : Loop) (busy : l.isIdle = false) :
  l.advance.stepsLeft < l.stepsLeft
  := by
  obtain ⟨phase, queue, counts⟩ := l
  cases phase <;> cases queue with
  | nil => simp_all [isIdle, advance, stepsLeft, beginCount]
  | cons e es => cases es <;> simp [advance, stepsLeft, beginCount]

/-- After as many steps as the bound says the loop has nothing to do. -/
theorem isIdle_advances (n : Nat) (l : Loop) (enough : l.stepsLeft ≤ n) :
  (l.advances n).isIdle
  := by
  induction n generalizing l with
  | zero =>
    obtain ⟨phase, queue, counts⟩ := l
    cases phase <;> cases queue <;> simp_all [isIdle, stepsLeft, advances]
  | succ n ih =>
    apply ih
    cases busy : l.isIdle with
    | true =>
      rw [advance_of_isIdle l busy]
      obtain ⟨phase, queue, counts⟩ := l
      cases phase <;> cases queue <;> simp_all [isIdle, stepsLeft]
    | false =>
      have := stepsLeft_advance l busy
      omega

/-- A settled loop has nothing to do. -/
theorem isIdle_settle (l : Loop) :
  l.settle.isIdle
  := by
  apply isIdle_advances
  obtain ⟨phase, queue, counts⟩ := l
  cases phase <;> cases queue <;> simp [stepsLeft]

end Loop

/-! ### Sessions -/

/-- One count, with what the loop says before it. -/
def cycle (d : Disk) (s : Settings) (announcement : Text) :
    Logged (Except Failure SurveyReport) := do
  Logged.record .info announcement
  Survey.report d s

/-- What the loop says before its first count. -/
def opening (s : Settings) : Text :=
  "watching ".toList ++ Text.ofNat s.walk.roots.length ++ " path(s) for changes".toList

/-- What the loop says before any later count. -/
def again : Text := "change detected; recounting".toList

/-- The counts a loop makes before it waits again. -/
def cycles (d : Disk) (s : Settings) (announcement : Text) (l : Loop) :
    List (Logged (Except Failure SurveyReport)) :=
  List.replicate (l.settle.counts - l.counts) (cycle d s announcement)

/-- The counts after changes that come in batches, the loop waiting again between them. -/
def later (s : Settings) : Disk → Loop → List (List Disk.Change) →
    List (Logged (Except Failure SurveyReport))
  | _, _, [] => []
  | d, l, batch :: batches =>
    let changed := batch.foldl Disk.apply d
    let woken := batch.foldl (fun l _ => l.deliver .change) l
    cycles changed s again woken ++ later s changed woken.settle batches

/-- All counts of a loop during which changes come in batches. -/
def session (d : Disk) (s : Settings) (batches : List (List Disk.Change)) :
    List (Logged (Except Failure SurveyReport)) :=
  cycles d s (opening s) {} ++ later s d (Loop.settle {}) batches

end Watch

end CartTokens
