import CartTokens.CommandLine.Arguments

/-!
# Parsing a command line

The words of a command line are taken from left to right.  What was written for an argument is
kept until the next argument begins; only then is it taken in, so a fault in it shows up there
and not before.  A word that belongs to no argument is reported at once.
-/

namespace CartTokens

/-! ### Options -/

/-- The commands a word can belong to. -/
inductive Scope where
  | program
  | combine
  | explain
  deriving DecidableEq, Repr

/-- What an option is for. -/
inductive OptionUse where
  | value (argument : Argument)
  | flag (argument : Argument)
  | help
  | version
  deriving DecidableEq, Repr

/-- An option with its spellings. -/
structure OptionSpec where
  long : Text
  short : Option Char
  use : OptionUse

/-- The options of every command. -/
def globalOptions : List OptionSpec :=
  [⟨"verbose".toList, some 'v', .flag .verbose⟩,
   ⟨"log-level".toList, none, .value .logLevel⟩,
   ⟨"help".toList, some 'h', .help⟩]

/-- The options of a command. -/
def Scope.options : Scope → List OptionSpec
  | .program =>
    [⟨"format".toList, none, .value .format⟩,
     ⟨"sort".toList, none, .value .sort⟩,
     ⟨"ext".toList, none, .value .extensions⟩,
     ⟨"hidden".toList, none, .flag .hidden⟩,
     ⟨"no-gitignore".toList, none, .flag .noGitIgnore⟩,
     ⟨"max-depth".toList, none, .value .maxDepth⟩,
     ⟨"follow".toList, none, .flag .follow⟩,
     ⟨"jobs".toList, some 'j', .value .jobs⟩,
     ⟨"stdin-name".toList, none, .value .stdinName⟩,
     ⟨"budget".toList, none, .value .budget⟩,
     ⟨"deny-overflow".toList, none, .flag .denyOverflow⟩,
     ⟨"strict".toList, none, .flag .strict⟩,
     ⟨"watch".toList, none, .flag .watch⟩,
     ⟨"watch-interval".toList, none, .value .watchInterval⟩,
     ⟨"version".toList, some 'V', .version⟩] ++ globalOptions
  | .combine => ⟨"output".toList, some 'o', .value .output⟩ :: globalOptions
  | .explain => ⟨"all".toList, none, .flag .all⟩ :: globalOptions

/-- The option with a long spelling. -/
def Scope.long? (s : Scope) (name : Text) : Option OptionUse :=
  (s.options.find? (·.long == name)).map OptionSpec.use

/-- The option with a short spelling. -/
def Scope.short? (s : Scope) (c : Char) : Option OptionUse :=
  (s.options.find? (·.short == some c)).map OptionSpec.use

/-! ### States -/

/-- What the next word can be: anything, the value of an option, or one more path. -/
inductive Expecting where
  | anything
  | value
  | path
  deriving DecidableEq, Repr

/-- How far a command line has been taken in. -/
structure ParseState where
  given : Given := {}
  pending : Option (Argument × List Text) := none
  expecting : Expecting := .anything
  /-- Only paths follow. -/
  trailing : Bool := false
  /-- The number of words taken as paths. -/
  taken : Nat := 0

/-- The result of a step. -/
abbrev Parsed := Except Interruption ParseState

namespace ParseState

/-- Takes in what is pending. -/
def settle (s : ParseState) : Parsed :=
  match s.pending with
  | none => .ok s
  | some (argument, values) => do
    return { s with given := ← s.given.add argument values, pending := none }

/-- Takes in a whole argument. -/
def complete (s : ParseState) (argument : Argument) (values : List Text) : Parsed := do
  let settled ← s.settle
  return { settled with given := ← settled.given.add argument values, expecting := .anything }

/-- Begins an argument whose value is the next word. -/
def await (s : ParseState) (argument : Argument) : Parsed := do
  return { ← s.settle with pending := some (argument, []), expecting := .value }

/-- Gives the pending argument its value. -/
def supply (s : ParseState) (word : Text) : ParseState :=
  { s with
    pending := s.pending.map fun (argument, values) => (argument, values ++ [word])
    expecting := .anything }

/-- Takes an option, with the value attached to it if there is one. -/
def option (s : ParseState) (use : OptionUse) (attached : Option Text) : Parsed :=
  match use, attached with
  | .value argument, some value => s.complete argument [value]
  | .value argument, none => s.await argument
  | _, some _ => .error .surplusValue
  | .flag argument, none => s.complete argument []
  | .help, none => do
    let _ ← s.settle
    .error .help
  | .version, none => do
    let _ ← s.settle
    .error .version

/-- Takes an option in its long spelling, without the two dashes. -/
def long (scope : Scope) (s : ParseState) (body : Text) : Parsed :=
  match scope.long? (body.takeWhile (· != '=')) with
  | none => .error .unknownArgument
  | some use =>
    s.option use (if body.contains '=' then some ((body.dropWhile (· != '=')).drop 1) else none)

/-- The value attached to an option in its short spelling. -/
def attached : Text → Option Text
  | [] => none
  | '=' :: value => some value
  | value => some value

/-- Takes options in their short spellings, without the dash. -/
def short (scope : Scope) (s : ParseState) : Text → Parsed
  | [] => .ok s
  | c :: cs =>
    match scope.short? c with
    | none => .error .unknownArgument
    | some (.value argument) => s.option (.value argument) (attached cs)
    | some use =>
      match s.option use none with
      | .error e => .error e
      | .ok next => short scope next cs

/-- Takes a path.  Neighbouring paths are taken in together; a command for one file takes no
second path. -/
def path (scope : Scope) (s : ParseState) (word : Text) : Parsed := do
  if scope = .explain then
    if 0 < s.taken then
      .error .unknownArgument
    else
      return { ← s.settle with
        pending := some (.paths, [word]), expecting := .anything, taken := s.taken + 1 }
  else
    match s.pending with
    | some (.paths, values) =>
      return { s with
        pending := some (.paths, values ++ [word]), expecting := .path, taken := s.taken + 1 }
    | _ =>
      return { ← s.settle with
        pending := some (.paths, [word]), expecting := .path, taken := s.taken + 1 }

/-- Takes one word. -/
def step (scope : Scope) (s : ParseState) (word : Text) : Parsed :=
  if s.trailing then s.path scope word
  else
    match word with
    | ['-', '-'] => .ok { s with trailing := true }
    | '-' :: '-' :: body => s.long scope body
    | '-' :: c :: cs => s.short scope (c :: cs)
    | _ => if s.expecting = .value then .ok (s.supply word) else s.path scope word

end ParseState

/-! ### Commands -/

/-- The words that name commands. -/
inductive CommandWord where
  | combine
  | explain
  | help
  deriving DecidableEq, Repr

/-- The command a word names. -/
def CommandWord.ofText? (word : Text) : Option CommandWord :=
  if word = "combine".toList then some .combine
  else if word = "explain".toList then some .explain
  else if word = "help".toList then some .help
  else none

/-- The outcome of asking for help: the words after it name a command, if there are any. -/
def helpOn : List Text → Interruption
  | [] => .help
  | [topic] => if (CommandWord.ofText? topic).isSome then .help else .unknownCommand
  | _ => .unknownCommand

/-- The words of the program up to a command, and that command with the words after it. -/
def takeProgram : List Text → ParseState →
    Except Interruption (ParseState × Option (Scope × List Text))
  | [], s => .ok (s, none)
  | word :: rest, s =>
    match if s.trailing || s.expecting != .anything then none else CommandWord.ofText? word with
    | some .combine => .ok (s, some (.combine, rest))
    | some .explain => .ok (s, some (.explain, rest))
    | some .help => .error (helpOn rest)
    | none =>
      match s.step .program word with
      | .error e => .error e
      | .ok next => takeProgram rest next

/-- The level in force for one command: the one given to it, else that of the environment. -/
structure LevelSource where
  given : Option Level
  environment : Option Level

/-- Takes in what is pending at the end, and then the environment unless a level was given. -/
def ParseState.finish (s : ParseState) (environment : Option Text) :
    Except Interruption (Given × LevelSource) := do
  let settled ← s.settle
  match settled.given.logLevel, environment with
  | none, some word => return (settled.given, ⟨none, some (← readChoice Level.choices word)⟩)
  | level, _ => return (settled.given, ⟨level, none⟩)

/-- The command with what was given to it. -/
def commandOf (scope : Scope) (g : Given) : Except Interruption Command :=
  match scope, g.paths with
  | _, [] => .error .missingArgument
  | .explain, file :: _ => .ok (.explain file g.all.isSome)
  | _, files => .ok (.combine files g.output)

/-- Parses a command line.  The environment may set the level; an argument of a command wins over
the same argument of the program, and both win over the environment. -/
def parseArguments (environment : Option Text) (words : List Text) :
    Except Interruption Arguments := do
  let (state, rest) ← takeProgram words {}
  match rest with
  | none =>
    let (g, level) ← state.finish environment
    return .ofGiven g none g.verbose (level.given <|> level.environment)
  | some (scope, inner) =>
    let innerState ← inner.foldlM (ParseState.step scope) {}
    let (h, innerLevel) ← innerState.finish environment
    let command ← commandOf scope h
    let (g, level) ← state.finish environment
    return .ofGiven g (some command) (if 0 < h.verbose then h.verbose else g.verbose)
      (innerLevel.given <|> level.given <|> innerLevel.environment <|> level.environment)

end CartTokens
