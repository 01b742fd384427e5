import CartTokens.Ignore
import CartTokens.Log
import CartTokens.Settings

/-!
# Walks

The files found below the roots.  A root that is a file is always found; below a root, hidden and
ignored names are left out, and files need an accepted extension.
-/

namespace CartTokens

namespace Walk

/-- A directory on the way from a root, as it is stored and as it is written. -/
structure Visited where
  location : Location
  path : Path

/-- Where a walk stands: the directories from the current one out to the root, and the rules that
count there. -/
structure Position where
  visited : List Visited
  scope : IgnoreScope
  depth : Nat

/-- A name that is left out unless hidden names are asked for. -/
def isHidden (name : Text) : Bool :=
  name.head? == some '.'

/-- The entry with the given name is left out. -/
def isSkipped (o : WalkOptions) (scope : IgnoreScope) (name : Text) (entry : Path)
    (isDirectory : Bool) : Bool :=
  match scope.verdict entry isDirectory with
  | some .ignored => true
  | some .included => false
  | none => !o.hidden && isHidden name

/-- What there is to see under a name. -/
inductive Sight where
  | file
  | directory (loc : Location)
  | nothing
  | fault (text : Text)

/-- What there is to see under a name in a directory.  A link counts only if links are followed,
and not if it leads to a directory it lies in. -/
def look (d : Disk) (o : WalkOptions) (visited : List Visited) (loc : Location) (name : Text)
    (path : Path) : Sight :=
  match d.get? (loc ++ [name]) with
  | none => .nothing
  | some (.file _) => .file
  | some .unreadable => .file
  | some .directory => .directory (loc ++ [name])
  | some (.link _) =>
    if !o.followLinks then .nothing
    else
      match d.follow Disk.maxLinks loc [name] with
      | .error fault => .fault (path.text ++ ": ".toList ++ fault.message)
      | .ok (_, none) => .fault (path.text ++ ": ".toList ++ DiskFault.notFound.message)
      | .ok (target, some .directory) =>
        match visited.find? (·.location == target) with
        | some ancestor =>
          .fault ("File system loop found: ".toList ++ path.text
            ++ " points to an ancestor ".toList ++ ancestor.path.text)
        | none => .directory target
      | .ok (_, some _) => .file

/-- The depth at which directories are no longer entered has been reached. -/
def isDeepEnough (o : WalkOptions) (depth : Nat) : Bool :=
  o.maxDepth.any (· ≤ depth)

/-- The files below a directory.  On one way down, a directory is entered through a link only if
it is not on that way yet, so `fuel` need not exceed the square of the number of items. -/
def below (d : Disk) (o : WalkOptions) : (fuel : Nat) → Position → Location → Path →
    Logged (List Path)
  | 0, _, _, _ => return []
  | fuel + 1, position, loc, path => do
    if isDeepEnough o position.depth then
      return []
    let found ← (d.children loc).mapM fun name => do
      let entry := path.join ⟨name⟩
      match look d o position.visited loc name entry with
      | .nothing => return []
      | .fault text =>
        Logged.record .warn ("skipping entry: ".toList ++ text)
        return []
      | .file =>
        if isSkipped o position.scope name entry false then return []
        return if o.accepts entry then [entry] else []
      | .directory target =>
        if isSkipped o position.scope name entry true then return []
        below d o fuel
          { visited := ⟨target, entry⟩ :: position.visited
            scope := position.scope.enter d o.gitIgnore entry target
            depth := position.depth + 1 }
          target entry
    return found.flatten

/-- The word for the standard input, at which there are no files. -/
def standardInput : Path := ⟨"-".toList⟩

/-- The files of a root. -/
def ofRoot (d : Disk) (o : WalkOptions) (root : Path) : Logged (List Path) :=
  if root.same standardInput then return []
  else
    match d.resolve root with
    | .error _ => return []
    | .ok (loc, .directory) =>
      below d o ((d.items.length + 2) ^ 2)
        { visited := [⟨loc, root⟩]
          scope := .ofRoot d o.gitIgnore root loc
          depth := 0 }
        loc root
    | .ok _ => return [root]

/-- The files of all roots, in the order in which they are found; a root that does not exist is a
failure. -/
def files (d : Disk) (o : WalkOptions) : Logged (Except Failure (List Path)) := do
  match o.roots.find? fun root => !d.isPresent root with
  | some root => return .error (.rootNotFound root)
  | none => return .ok (← o.roots.mapM (ofRoot d o)).flatten

/-- Neighbours with the same components made one, the first of them. -/
def dedup : List Path → List Path
  | p :: q :: rest => if p.same q then dedup (p :: rest) else p :: dedup (q :: rest)
  | paths => paths
termination_by paths => paths.length

/-- The paths in order, each once. -/
def normalize (paths : List Path) : List Path :=
  dedup (paths.mergeSort fun p q => (p.order q).isLE)

/-- The files of all roots in order, each once. -/
def collect (d : Disk) (o : WalkOptions) : Logged (Except Failure (List Path)) := do
  return (← files d o).map normalize

end Walk

end CartTokens
