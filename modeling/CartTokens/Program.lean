import CartTokens.CommandLine.Parser
import CartTokens.Format.Explanation
import CartTokens.Watch

/-!
# The program

What the program does with a command line: its exit code, what it writes to the standard output
and the standard error, and the disk it leaves behind.
-/

namespace CartTokens

namespace Program

/-- The exit code of a success. -/
def exitSuccess : Nat := 0

/-- The exit code of a failure. -/
def exitFailure : Nat := 1

/-- The exit code for a command line that cannot be understood. -/
def exitUsage : Nat := 2

/-- The exit code for a budget that does not hold, where that was to be denied. -/
def exitOverBudget : Nat := 2

/-- The outcome of a run. -/
structure Outcome where
  code : Nat := exitSuccess
  stdout : Text := []
  stderr : List Text := []
  disk : Disk

/-! ### Command lines that are not carried out -/

/-- What is shown when help is asked for. -/
def usage : Text :=
  "Usage: p8tokens [OPTIONS] [PATHS]...\n".toList
    ++ "       p8tokens combine [OPTIONS] <FILES>...\n".toList
    ++ "       p8tokens explain [OPTIONS] <FILE>\n".toList

/-- The wording for a command line that is not carried out. -/
def wording : Interruption → Text
  | .badValue => "a value is missing or not one of those allowed".toList
  | .refusedValue => "a value was refused".toList
  | .unknownArgument => "there is an argument that is not known".toList
  | .repeatedArgument => "an argument was given more than once".toList
  | .surplusValue => "an argument was given a value it does not take".toList
  | .missingArgument => "an argument is missing".toList
  | .unknownCommand => "there is no such command".toList
  | .help => "help was asked for".toList
  | .version => "the version was asked for".toList

/-- The outcome of a command line that is not carried out. -/
def interrupted (d : Disk) : Interruption → Outcome
  | .help => { stdout := usage, disk := d }
  | .version => { stdout := programName ++ [' '] ++ version ++ ['\n'], disk := d }
  | fault => { code := exitUsage, stderr := ["error: ".toList ++ wording fault], disk := d }

/-! ### Running -/

/-- Why a run failed. -/
inductive RunFailure where
  | files (failure : Failure)
  | budget (fault : BudgetFault)
  deriving DecidableEq, Repr

/-- The wording of a failure. -/
def RunFailure.message : RunFailure → Text
  | .files failure => failure.message
  | .budget fault => fault.message

/-- The line of a record. -/
def recordLine (r : Record) : Text :=
  ['['] ++ r.level.label ++ "] ".toList ++ r.text

/-- The lines of the records that are shown at a level. -/
def recordLines (level : Level) (records : List Record) : List Text :=
  (records.filter fun r => r.level.rank ≤ level.rank).map recordLine

/-- The outcome of a result with its records. -/
def outcome (d : Disk) (level : Level) (result : Logged (Except RunFailure Outcome)) :
    Outcome :=
  match result.value with
  | .error failure =>
    { code := exitFailure
      stderr := recordLines level result.records
        ++ ["Application Error: ".toList ++ failure.message]
      disk := d }
  | .ok o => { o with stderr := recordLines level result.records ++ o.stderr }

/-- The settings of a run; the standard input becomes a buffer if it was given a name. -/
def load (a : Arguments) (machineThreads : Nat) (stdin : Bytes) :
    Logged (Except BudgetFault Settings) := do
  match a.settings machineThreads, a.stdinName with
  | .ok s, some name =>
    Logged.record .debug
      ("read ".toList ++ Text.ofNat stdin.length ++ " bytes from stdin as ".toList ++ name)
    return .ok { s with buffers := s.buffers ++ [⟨name, Utf8.decode stdin⟩] }
  | settings, _ => return settings

/-- The outcome of a count. -/
def countOutcome (d : Disk) (a : Arguments) (r : Report) : Outcome where
  code := if a.denyOverflow && r.isOverBudget then exitOverBudget else exitSuccess
  stdout := r.render a.format a.sort ++ ['\n']
  stderr :=
    if a.denyOverflow && r.isOverBudget then
      ["Token budget exceeded: ".toList ++ Text.ofNat r.total ++ " / ".toList
        ++ Text.ofNat r.limit]
    else []
  disk := d

/-- Clears the screen. -/
def clearScreen : Text := "\x1b[2J\x1b[1;1H".toList

/-- The outcome of one cycle of watching. -/
def cycleOutcome (d : Disk) (a : Arguments) : Except Failure SurveyReport → Outcome
  | .ok result => { stdout := clearScreen ++ result.report.render a.format a.sort ++ ['\n'],
                    disk := d }
  | .error failure =>
    { stdout := clearScreen
      stderr := ["Error in watch cycle: ".toList ++ failure.message]
      disk := d }

/-- One cycle of watching. -/
def watchCycle (d : Disk) (a : Arguments) (s : Settings) (announcement : Text) :
    Logged (Except RunFailure Outcome) := do
  return .ok (cycleOutcome d a (← Watch.cycle d s announcement))

/-- Counts; of a watch this is the first cycle. -/
def count (d : Disk) (machineThreads : Nat) (stdin : Bytes) (a : Arguments) :
    Logged (Except RunFailure Outcome) := do
  match ← load a machineThreads stdin with
  | .error fault => return .error (.budget fault)
  | .ok s =>
    if s.watch then
      watchCycle d a s (Watch.opening s)
    else
      match ← Survey.report d s with
      | .error failure => return .error (.files failure)
      | .ok result => return .ok (countOutcome d a result.report)

/-- Explains the count of a file. -/
def explain (d : Disk) (file : Path) (all : Bool) : Except RunFailure Outcome :=
  match Survey.readFile d file with
  | .error failure => .error (.files failure)
  | .ok content =>
    .ok { stdout := Explanation.render (explainText (Utf8.decode content)) all ++ ['\n']
          disk := d }

/-- Combines files. -/
def combine (d : Disk) (files : List Path) (output : Option Path) :
    Logged (Except RunFailure Outcome) := do
  match ← Bundle.write d files output with
  | .error failure => return .error (.files failure)
  | .ok (target, next) => return .ok { stdout := target.text ++ ['\n'], disk := next }

/-- Does what the arguments ask for. -/
def perform (d : Disk) (machineThreads : Nat) (stdin : Bytes) (a : Arguments) : Outcome :=
  outcome d a.level
    (match a.command with
      | some (.combine files output) => combine d files output
      | some (.explain file all) => return explain d file all
      | none => count d machineThreads stdin a)

/-- Runs the program. -/
def run (d : Disk) (machineThreads : Nat) (stdin : Bytes) (environment : Option Text)
    (words : List Text) : Outcome :=
  match parseArguments environment words with
  | .error interruption => interrupted d interruption
  | .ok a => perform d machineThreads stdin a

end Program

end CartTokens
