import CartTokens.Program

/-!
# The command line

The outer layer of the program: it takes a snapshot of the part of the file system that the
arguments name, runs the program on it, and carries the outcome out.
-/

namespace CartTokens

namespace Snapshot

/-- The location of an absolute path. -/
def locationOf (absolute : String) : Location :=
  (Text.parts '/' absolute.toList).filter fun part => !part.isEmpty

/-- The absolute path of a location. -/
def absoluteOf (loc : Location) : String :=
  "/" ++ String.ofList (Text.join ['/'] loc)

/-- The content of a file as an item. -/
def readItem (absolute : String) : IO Item := do
  try
    return .file (← IO.FS.readBinFile absolute).toList
  catch _ =>
    return .unreadable

/-- The kind of what is stored under a path, links not followed. -/
def typeOf? (absolute : String) : IO (Option IO.FS.FileType) := do
  try
    let parent ← IO.FS.realPath (absoluteOf (locationOf absolute).dropLast)
    let entry : IO.FS.DirEntry :=
      ⟨parent, String.ofList ((locationOf absolute).getLast?.getD [])⟩
    return some (← entry.path.symlinkMetadata).type
  catch _ =>
    return none

/-- Where a link leads; one that leads nowhere is kept as leading to a name no file can have. -/
def targetOf (absolute : String) : IO Path := do
  try
    return ⟨(← IO.FS.realPath absolute).toString.toList⟩
  catch _ =>
    return ⟨['/', '\x00']⟩

/-- The names in a directory. -/
def namesIn (absolute : String) : IO (List String) := do
  try
    return (← (← IO.FS.realPath absolute).readDir).toList.map IO.FS.DirEntry.fileName
  catch _ =>
    return []

/-- What has been taken in so far, and the directories of which everything has. -/
structure Progress where
  disk : Disk
  complete : List Location := []

/-- Stores an item. -/
def Progress.put (p : Progress) (loc : Location) (item : Item) : Progress :=
  { p with disk := p.disk.put loc item }

/-- What the arguments need of the file system. -/
structure Need where
  /-- The content of the file at a location may be asked for. -/
  content : Location → Bool
  /-- Links below a directory are followed. -/
  links : Bool

/-- Takes in what is stored at a location, and all below it. -/
partial def takeTree (need : Need) (p : Progress) (loc : Location) : IO Progress := do
  let absolute := absoluteOf loc
  match ← typeOf? absolute with
  | none => return p
  | some .dir =>
    if p.complete.contains loc then
      return p
    let mut next := { p.put loc .directory with complete := loc :: p.complete }
    for name in ← namesIn absolute do
      next ← takeTree need next (loc ++ [name.toList])
    return next
  | some .symlink =>
    let target ← targetOf absolute
    let linked := p.put loc (.link target)
    if need.links then
      takeTree need (← takeWay linked (locationOf (String.ofList target.text)))
        (locationOf (String.ofList target.text))
    else
      return linked
  | some _ => return p.put loc (← if need.content loc then readItem absolute else pure (.file []))
where
  /-- Takes in the directories on the way to a location. -/
  takeWay (p : Progress) (loc : Location) : IO Progress := do
    return (List.range loc.length).foldl
      (fun p n => if n = 0 then p else p.put (loc.take n) .directory) p

/-- Takes in a single file if there is one. -/
def takeFile (d : Disk) (loc : Location) : IO Disk := do
  match ← typeOf? (absoluteOf loc) with
  | some .file => return d.place ⟨(absoluteOf loc).toList⟩ (← readItem (absoluteOf loc))
  | some .dir => return d.place ⟨(absoluteOf loc).toList⟩ .directory
  | _ => return d

/-- The names of ignore files. -/
def ignoreNames : List Text :=
  [".ignore", ".gitignore", ".git", "exclude"].map String.toList

/-- Takes in the directories around a location with their ignore files. -/
def takeAround (d : Disk) (loc : Location) : IO Disk := do
  let mut next := d
  for n in List.range (loc.length + 1) do
    let outer := loc.take n
    if n ≠ 0 ∧ (next.items.lookup outer).isNone then
      next := { next with items := next.items ++ [(outer, .directory)] }
    for name in [".ignore", ".gitignore", ".git"] do
      next ← takeFile next (outer ++ [name.toList])
    next ← takeFile next (outer ++ [".git".toList, "info".toList, "exclude".toList])
  return next

/-- Takes in what a path leads to, with the links on the way. -/
def takePath (need : Need) (p : Progress) (path : Path) : IO Progress := do
  let mut next := p
  let mut loc := p.disk.start path
  for name in path.steps do
    if name = ['.', '.'] then
      loc := loc.dropLast
    else if name ≠ ['.'] then
      loc := loc ++ [name]
      match ← typeOf? (absoluteOf loc) with
      | some .symlink =>
        let target ← targetOf (absoluteOf loc)
        next := next.put loc (.link target)
        loc := locationOf (String.ofList target.text)
      | _ => pure ()
  takeTree need { next with disk := ← takeAround next.disk loc.dropLast } loc

/-- The part of the file system that the arguments name. -/
def take (a : Arguments) : IO Disk := do
  let here := locationOf (← IO.currentDir).toString
  let empty ← takeAround { here := here } here
  let named := match a.command with
    | some (.combine files output) => files ++ (output.map fun p => [p]).getD []
    | some (.explain file _) => [file]
    | none => if a.paths.isEmpty then [Arguments.defaultRoot] else a.paths
  let options : WalkOptions := { extensions := a.extensions }
  let need : Need :=
    { content := fun loc =>
        a.followLinks
          || named.any (fun p => some p.fileName == loc.getLast?)
          || ignoreNames.any (fun name => some name == loc.getLast?)
          || options.accepts ⟨(absoluteOf loc).toList⟩
      links := a.followLinks }
  return (← named.foldlM (takePath need) { disk := empty }).disk

/-- Writes the files in which a disk differs from an earlier one. -/
def commit (before after : Disk) : IO Unit := do
  for (loc, item) in after.items do
    if before.items.lookup loc ≠ some item then
      match item with
      | .file content => IO.FS.writeBinFile (absoluteOf loc) ⟨content.toArray⟩
      | _ => pure ()

end Snapshot

/-- Reads a stream to its end. -/
partial def readAll (stream : IO.FS.Stream) (sofar : Bytes) : IO Bytes := do
  let chunk ← stream.read 65536
  if chunk.isEmpty then return sofar else readAll stream (sofar ++ chunk.toList)

/-- Writes what an outcome has for the two output streams. -/
def emit (o : Program.Outcome) : IO Unit := do
  for line in o.stderr do
    IO.eprintln (String.ofList line)
  IO.print (String.ofList o.stdout)
  (← IO.getStdout).flush

/-- Counts again whenever the files have changed. -/
partial def keepWatching (a : Arguments) (s : Settings) (before : Disk) : IO Unit := do
  IO.sleep (1000 * s.watchInterval).toUInt32
  let disk ← Snapshot.take a
  if disk.items ≠ before.items then
    emit (Program.outcome disk a.level (Program.watchCycle disk a s Watch.again))
  keepWatching a s disk

/-- The number of threads if none is asked for. -/
def standardThreads : Nat := 1

end CartTokens

open CartTokens in
/-- Runs the program on the arguments of the command line. -/
def main (args : List String) : IO UInt32 := do
  let environment := (← IO.getEnv "P8TOKENS_LOG").map String.toList
  match parseArguments environment (args.map String.toList) with
  | .error interruption =>
    let o := Program.interrupted {} interruption
    emit o
    return o.code.toUInt32
  | .ok a =>
    let stdin ← if a.stdinName.isSome then readAll (← IO.getStdin) [] else pure []
    let disk ← Snapshot.take a
    let o := Program.perform disk standardThreads stdin a
    Snapshot.commit disk o.disk
    emit o
    match a.command, (Program.load a standardThreads stdin).value with
    | none, .ok s => if s.watch then keepWatching a s disk
    | _, _ => pure ()
    return o.code.toUInt32
