import CartTokens.Failure
import CartTokens.Text.Utf8

/-!
# Disks

A file system as a value: what is stored at each location, and the working directory, from
which paths are followed.  Links are followed as often as forty times on one path.
-/

namespace CartTokens

/-- The names on the way from the root of the file system, outermost first. -/
abbrev Location := List Text

/-- What is stored at a location. -/
inductive Item where
  | file (content : Bytes)
  /-- A file that cannot be read. -/
  | unreadable
  | directory
  | link (target : Path)
  deriving DecidableEq, Repr

/-- A file system with a working directory. -/
structure Disk where
  items : List (Location × Item) := []
  here : Location := []

/-- The names to follow one after another; a slash at the end asks for a directory. -/
def Path.steps (p : Path) : List Text :=
  (Text.parts '/' p.text).filter (fun part => !part.isEmpty)
    ++ (if p.text.getLast? == some '/' then [['.']] else [])

namespace Disk

/-- What is stored at a location; the root is always a directory. -/
def get? (d : Disk) (loc : Location) : Option Item :=
  if loc = [] then some .directory else d.items.lookup loc

/-- Stores an item. -/
def put (d : Disk) (loc : Location) (item : Item) : Disk :=
  if d.items.any (·.1 == loc) then
    { d with items := d.items.map fun entry => if entry.1 = loc then (loc, item) else entry }
  else { d with items := d.items ++ [(loc, item)] }

/-- The names in a directory. -/
def children (d : Disk) (loc : Location) : List Text :=
  d.items.filterMap fun entry =>
    match entry.1.getLast? with
    | some name => if entry.1.dropLast = loc then some name else none
    | none => none

/-! ### Following paths -/

/-- The greatest number of links on one path. -/
def maxLinks : Nat := 40

/-- The greatest number of bytes of a name. -/
def maxName : Nat := 255

/-- Follows names from a location to where they lead, and tells what is stored there.  The last
name need not exist; one in between must lead to a directory. -/
def follow (d : Disk) (links : Nat) (loc : Location) (steps : List Text) :
    Except DiskFault (Location × Option Item) :=
  match steps with
  | [] => .ok (loc, d.get? loc)
  | step :: rest =>
    if d.get? loc ≠ some .directory then .error .notDirectory
    else if step = ['.'] then d.follow links loc rest
    else if step = ['.', '.'] then d.follow links loc.dropLast rest
    else if maxName < (Utf8.encode step).length then .error .nameTooLong
    else
      match d.get? (loc ++ [step]) with
      | none => if rest.isEmpty then .ok (loc ++ [step], none) else .error .notFound
      | some (.link target) =>
        match links with
        | 0 => .error .tooManyLinks
        | fewer + 1 =>
          d.follow fewer (if target.isAbsolute then [] else loc) (target.steps ++ rest)
      | some _ => d.follow links (loc ++ [step]) rest
termination_by (links, steps.length)

/-- Where a path starts. -/
def start (d : Disk) (p : Path) : Location :=
  if p.isAbsolute then [] else d.here

/-- What a path leads to, and where that is stored. -/
def resolve (d : Disk) (p : Path) : Except DiskFault (Location × Item) :=
  if p.text.isEmpty then .error .notFound
  else if p.text.contains '\x00' then .error .nulInName
  else
    match d.follow maxLinks (d.start p) p.steps with
    | .error fault => .error fault
    | .ok (_, none) => .error .notFound
    | .ok (loc, some item) => .ok (loc, item)

/-- The path leads to something. -/
def isPresent (d : Disk) (p : Path) : Bool :=
  (d.resolve p).isOk

/-- The content of a file. -/
def contentOf : Item → Except DiskFault Bytes
  | .file content => .ok content
  | .unreadable => .error .unreadable
  | .directory => .error .isDirectory
  | .link _ => .error .tooManyLinks

/-- Reads the file a path leads to. -/
def read (d : Disk) (p : Path) : Except DiskFault Bytes := do
  contentOf (← d.resolve p).2

/-- Reads the file with the given names below a directory. -/
def readBelow (d : Disk) (loc : Location) (names : List Text) : Except DiskFault Bytes :=
  match d.follow maxLinks loc names with
  | .error fault => .error fault
  | .ok (_, none) => .error .notFound
  | .ok (_, some item) => contentOf item

/-! ### Changes -/

/-- The directory a new name goes into, and that name. -/
def slot (d : Disk) (p : Path) : Except DiskFault (Location × Text) :=
  let names := (Text.parts '/' p.text).filter fun part => !part.isEmpty
  if p.text.isEmpty then .error .notFound
  else if p.text.contains '\x00' then .error .nulInName
  else
    match names.getLast?, d.follow maxLinks (d.start p) names.dropLast with
    | none, _ => .error .isDirectory
    | _, .error fault => .error fault
    | _, .ok (_, none) => .error .notFound
    | some name, .ok (loc, some .directory) =>
      if p.text.getLast? = some '/' ∨ name = ['.'] ∨ name = ['.', '.'] then .error .isDirectory
      else .ok (loc, name)
    | _, .ok (_, some _) => .error .notDirectory

/-- Writes a file, a new one if the path leads to none; links are followed. -/
def write (d : Disk) (p : Path) (content : Bytes) : Except DiskFault Disk := do
  let (directory, name) ← d.slot p
  match ← d.follow maxLinks directory [name] with
  | (loc, none) => return d.put loc (.file content)
  | (loc, some (.file _)) => return d.put loc (.file content)
  | (_, some .directory) => .error .isDirectory
  | (_, some _) => .error .unreadable

/-- Makes the directories that are missing on the way, and gives the location they lead to. -/
def makeDirectories (d : Disk) (loc : Location) : List Text → Disk × Location
  | [] => (d, loc)
  | name :: rest =>
    match d.follow maxLinks loc [name] with
    | .ok (next, some _) => d.makeDirectories next rest
    | .ok (next, none) => (d.put next .directory).makeDirectories next rest
    | .error _ => (d, loc)

/-- Stores an item under a path, with the directories it needs. -/
def place (d : Disk) (p : Path) (item : Item) : Disk :=
  let names := (Text.parts '/' p.text).filter fun part => !part.isEmpty
  let (ready, directory) := d.makeDirectories (d.start p) names.dropLast
  match names.getLast? with
  | none => d
  | some name => ready.put (directory ++ [name]) item

/-- The location is the given one or below it. -/
def isWithin (outer loc : Location) : Bool :=
  outer.isPrefixOf loc

/-- Removes what is stored under a path, and all below it. -/
def remove (d : Disk) (p : Path) : Disk :=
  match d.slot p with
  | .error _ => d
  | .ok (directory, name) =>
    { d with items := d.items.filter fun entry => !isWithin (directory ++ [name]) entry.1 }

/-- Moves what is stored under a path to another one, in the place of what is there. -/
def rename (d : Disk) (source target : Path) : Disk :=
  match d.slot source, d.slot target with
  | .ok (directory, name), .ok (directory', name') =>
    let old := directory ++ [name]
    let new := directory' ++ [name']
    if old = new then d
    else
      { d with
        items := (d.items.filter fun entry => !isWithin new entry.1).map fun entry =>
          if isWithin old entry.1 then (new ++ entry.1.drop old.length, entry.2) else entry }
  | _, _ => d

/-- A change of a disk. -/
inductive Change where
  | write (path : Path) (content : Bytes)
  | delete (path : Path)
  | rename (source target : Path)

/-- The disk after a change. -/
def apply (d : Disk) : Change → Disk
  | .write path content =>
    match d.write path content with
    | .ok next => next
    | .error _ => d.place path (.file content)
  | .delete path => d.remove path
  | .rename source target => d.rename source target

end Disk

end CartTokens
