import CartTokens.Bundle
import CartTokens.Walk

/-!
# Surveys

Counting the files of a disk, reporting on them, and combining them.
-/

namespace CartTokens

/-- The counted files in the order of their paths, and those that could not be read. -/
structure Survey where
  counts : List Entry
  errors : List (Path × Failure)

/-- The report on a disk, and the files that could not be read. -/
structure SurveyReport where
  report : Report
  errors : List (Path × Failure)

namespace Survey

/-- Reads a file. -/
def readFile (d : Disk) (path : Path) : Except Failure Bytes :=
  (d.read path).mapError (Failure.fileRead path)

/-- Counts a file. -/
def countFile (d : Disk) (path : Path) : Logged (Except Failure Entry) :=
  match readFile d path with
  | .error failure => return .error failure
  | .ok content => do
    Logged.record .debug
      (path.text ++ ": ".toList ++ Text.ofNat (countBytes content) ++ " tokens".toList)
    return .ok (.ofPath path (countBytes content))

/-- The entries come in the order of their paths. -/
def precedes (a b : Entry) : Bool :=
  match a.path, b.path with
  | some p, some q => (p.order q).isLE
  | some _, none => false
  | none, _ => true

/-- The entries of the files that can be read. -/
def counted (d : Disk) (paths : List Path) : List Entry :=
  paths.filterMap fun path => (countFile d path).value.toOption

/-- The files that cannot be read. -/
def failed (d : Disk) (paths : List Path) : List (Path × Failure) :=
  paths.filterMap fun path =>
    match (countFile d path).value with
    | .error failure => some (path, failure)
    | .ok _ => none

/-- The record of a file that is left out. -/
def skipRecord (path : Path) (failure : Failure) : Record :=
  ⟨.warn, "skipped ".toList ++ path.text ++ ": ".toList ++ failure.message⟩

/-- Counts the files with the given paths.  A strict count fails with the first file that cannot
be read; otherwise such files are set apart. -/
def ofPaths (d : Disk) (strict : Bool) (paths : List Path) : Logged (Except Failure Survey) :=
  let records := paths.flatMap fun path => (countFile d path).records
  match strict, failed d paths with
  | true, (_, failure) :: _ => ⟨.error failure, records⟩
  | _, errors =>
    ⟨.ok { counts := (counted d paths).mergeSort precedes, errors := errors },
      records ++ errors.map fun (path, failure) => skipRecord path failure⟩

/-- Counts the files that a walk delivers, in whatever order it does. -/
def ofDelivered (d : Disk) (s : Settings) (delivered : List Path) :
    Logged (Except Failure Survey) := do
  match ← ofPaths d s.strict delivered with
  | .error failure => return .error failure
  | .ok survey =>
    Logged.record .debug
      ("counted ".toList ++ Text.ofNat survey.counts.length ++ " files with ".toList
        ++ Text.ofNat (max 1 s.walk.threads) ++ " walker threads".toList)
    return .ok survey

/-- The report on the files that a walk delivers and the buffers over them. -/
def reportDelivered (d : Disk) (s : Settings) (delivered : List Path) :
    Logged (Except Failure SurveyReport) := do
  match ← ofDelivered d s delivered with
  | .error failure => return .error failure
  | .ok survey =>
    return .ok
      { report := ← Workspace.aggregate survey.counts s.buffers s.budget
        errors := survey.errors }

/-- Counts the files of a walk. -/
def ofSettings (d : Disk) (s : Settings) : Logged (Except Failure Survey) := do
  match ← Walk.files d s.walk with
  | .error failure => return .error failure
  | .ok delivered => ofDelivered d s delivered

/-- The report on the files of a walk and the buffers over them. -/
def report (d : Disk) (s : Settings) : Logged (Except Failure SurveyReport) := do
  match ← Walk.files d s.walk with
  | .error failure => return .error failure
  | .ok delivered => reportDelivered d s delivered

end Survey

namespace Bundle

/-- The source in a file. -/
def sourceOf (d : Disk) (path : Path) : Except Failure Source :=
  (Survey.readFile d path).map fun content => ⟨path.fileName, Utf8.decode content⟩

/-- Combines files into one cartridge. -/
def ofFiles (d : Disk) (paths : List Path) : Logged (Except Failure Text) :=
  match paths.mapM (sourceOf d) with
  | .error failure => return .error failure
  | .ok sources => combine sources

/-- Combines files and writes the result; gives its path and the disk with it. -/
def write (d : Disk) (paths : List Path) (output : Option Path) :
    Logged (Except Failure (Path × Disk)) := do
  match ← ofFiles d paths with
  | .error failure => return .error failure
  | .ok text =>
    let target := resolveOutput output ⟨".".toList⟩
    match d.write target (Utf8.encode text) with
    | .error fault => return .error (.fileWrite target fault)
    | .ok next =>
      Logged.record .info ("combined cartridge written to ".toList ++ target.text)
      return .ok (target, next)

end Bundle

end CartTokens
