import CartTokens.CommandLine.Value
import CartTokens.Format
import CartTokens.Log
import CartTokens.Settings

/-!
# Arguments

What a command line asks for, and what has been given of it so far.  An argument is taken in
with the values written for it: most may be given once, some add up.
-/

namespace CartTokens

/-- The arguments of all commands. -/
inductive Argument where
  | format
  | sort
  | extensions
  | hidden
  | noGitIgnore
  | maxDepth
  | follow
  | jobs
  | stdinName
  | budget
  | denyOverflow
  | strict
  | watch
  | watchInterval
  | verbose
  | logLevel
  | output
  | all
  | paths
  deriving DecidableEq, Repr

/-- Why a command line is not carried out. -/
inductive Interruption where
  | badValue
  | refusedValue
  | unknownArgument
  | repeatedArgument
  | surplusValue
  | missingArgument
  | unknownCommand
  | help
  | version
  deriving DecidableEq, Repr

/-- What has been given of the arguments of one command. -/
structure Given where
  format : Option OutputFormat := none
  sort : Option SortSpec := none
  extensions : Option (List Text) := none
  hidden : Option Unit := none
  noGitIgnore : Option Unit := none
  maxDepth : Option Nat := none
  follow : Option Unit := none
  jobs : Option Nat := none
  stdinName : Option Text := none
  budget : Option Nat := none
  denyOverflow : Option Unit := none
  strict : Option Unit := none
  watch : Option Unit := none
  watchInterval : Option Nat := none
  verbose : Nat := 0
  logLevel : Option Level := none
  output : Option Path := none
  all : Option Unit := none
  paths : List Path := []

/-! ### Values -/

/-- The levels with the words that select them. -/
def Level.choices : List (Text × Level) :=
  [("off".toList, .off), ("error".toList, .error), ("warn".toList, .warn),
   ("info".toList, .info), ("debug".toList, .debug), ("trace".toList, .trace)]

/-- Reads one of several words. -/
def readChoice {α : Type} (choices : List (Text × α)) (t : Text) : Except Interruption α :=
  match choices.lookup t with
  | some a => .ok a
  | none => .error .badValue

/-- Reads a path, which is not empty. -/
def readPath (t : Text) : Except Interruption Path :=
  if t.isEmpty then .error .badValue else .ok ⟨t⟩

/-- A value, refused if its reader refuses it. -/
def accepted {ε α : Type} (result : Except ε α) : Except Interruption α :=
  result.mapError fun _ => .refusedValue

/-- A flag that may be given once. -/
def setFlag (current : Option Unit) : Except Interruption (Option Unit) :=
  if current.isSome then .error .repeatedArgument else .ok (some ())

/-- A value that may be given once.  That it is missing is noticed first, then that it was
given before, then that it cannot be read. -/
def setValue {α : Type} (current : Option α) (values : List Text)
    (read : Text → Except Interruption α) : Except Interruption (Option α) :=
  match values with
  | [] => .error .badValue
  | value :: _ =>
    if current.isSome then .error .repeatedArgument else (read value).map some

/-- Values that add up. -/
def addValues {α : Type} (current : List α) (values : List Text)
    (read : Text → Except Interruption α) : Except Interruption (List α) :=
  if values.isEmpty then .error .badValue
  else (values.mapM read).map (current ++ ·)

/-- The most often a request to say more is counted. -/
def maxVerbose : Nat := 255

/-- Takes in an argument with its values. -/
def Given.add (g : Given) (argument : Argument) (values : List Text) :
    Except Interruption Given := do
  match argument with
  | .format =>
    return { g with format := ← setValue g.format values (readChoice OutputFormat.choices) }
  | .sort => return { g with sort := ← setValue g.sort values (accepted ∘ SortSpec.read) }
  | .extensions =>
    let extensions ← addValues (g.extensions.getD [])
      (values.flatMap (Text.parts ',')) (accepted ∘ readExtension)
    return { g with extensions := some extensions }
  | .hidden => return { g with hidden := ← setFlag g.hidden }
  | .noGitIgnore => return { g with noGitIgnore := ← setFlag g.noGitIgnore }
  | .maxDepth =>
    return { g with
      maxDepth := ← setValue g.maxDepth values (accepted ∘ readUnsigned maxUnsigned) }
  | .follow => return { g with follow := ← setFlag g.follow }
  | .jobs => return { g with jobs := ← setValue g.jobs values (accepted ∘ readThreads) }
  | .stdinName => return { g with stdinName := ← setValue g.stdinName values .ok }
  | .budget => return { g with budget := ← setValue g.budget values (accepted ∘ readPositive) }
  | .denyOverflow => return { g with denyOverflow := ← setFlag g.denyOverflow }
  | .strict => return { g with strict := ← setFlag g.strict }
  | .watch => return { g with watch := ← setFlag g.watch }
  | .watchInterval =>
    return { g with
      watchInterval := ← setValue g.watchInterval values (accepted ∘ readPositive) }
  | .verbose => return { g with verbose := min maxVerbose (g.verbose + 1) }
  | .logLevel =>
    return { g with logLevel := ← setValue g.logLevel values (readChoice Level.choices) }
  | .output => return { g with output := ← setValue g.output values readPath }
  | .all => return { g with all := ← setFlag g.all }
  | .paths => return { g with paths := ← addValues g.paths values readPath }

/-! ### The whole command line -/

/-- The commands besides counting. -/
inductive Command where
  | combine (files : List Path) (output : Option Path)
  | explain (file : Path) (all : Bool)
  deriving DecidableEq, Repr

/-- What a command line asks for. -/
structure Arguments where
  command : Option Command
  paths : List Path
  format : OutputFormat
  sort : SortSpec
  extensions : List Text
  hidden : Bool
  gitIgnore : Bool
  maxDepth : Option Nat
  followLinks : Bool
  jobs : Option Nat
  stdinName : Option Text
  budget : Nat
  denyOverflow : Bool
  strict : Bool
  watch : Bool
  watchInterval : Nat
  verbose : Nat
  logLevel : Option Level

namespace Arguments

/-- What is asked for by what was given to the program and to a command of it. -/
def ofGiven (g : Given) (command : Option Command) (verbose : Nat) (logLevel : Option Level) :
    Arguments where
  command := command
  paths := g.paths
  format := g.format.getD .table
  sort := g.sort.getD .byName
  extensions := g.extensions.getD [cartridgeExtension]
  hidden := g.hidden.isSome
  gitIgnore := g.noGitIgnore.isNone
  maxDepth := g.maxDepth
  followLinks := g.follow.isSome
  jobs := g.jobs
  stdinName := g.stdinName
  budget := g.budget.getD tokenLimit
  denyOverflow := g.denyOverflow.isSome
  strict := g.strict.isSome
  watch := g.watch.isSome
  watchInterval := g.watchInterval.getD 1
  verbose := verbose
  logLevel := logLevel

/-- The level that is shown. -/
def level (a : Arguments) : Level :=
  .resolve a.logLevel a.verbose

/-- The directory that is walked through if none is named. -/
def defaultRoot : Path := ⟨".".toList⟩

/-- The settings, on a machine that runs the given number of threads at a time. -/
def settings (a : Arguments) (machineThreads : Nat) : Except BudgetFault Settings := do
  let budget ← Budget.ofNat a.budget
  return {
    walk := {
      roots := if a.paths.isEmpty then [defaultRoot] else a.paths
      threads := a.jobs.getD machineThreads
      hidden := a.hidden
      gitIgnore := a.gitIgnore
      maxDepth := a.maxDepth
      followLinks := a.followLinks
      extensions := a.extensions }
    budget := budget
    strict := a.strict
    watch := a.watch
    watchInterval := a.watchInterval }

end Arguments

end CartTokens
