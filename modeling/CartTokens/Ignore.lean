import CartTokens.Disk
import CartTokens.Glob

/-!
# Ignore files

Files in a directory that tell which entries below it are left out of a walk.  Each line is a
rule; of the rules of a file that apply the last one decides, and of several files the one in
the deepest directory.

A rule is about the path of an entry as seen from the directory that holds the file.  Below a root
this is what was written, so a root written in an unusual way can hide an entry from a rule; for
the directories around a root it is where things are stored.
-/

namespace CartTokens

/-! ### Rules -/

/-- A rule of an ignore file. -/
structure IgnoreRule where
  includes : Bool
  directoryOnly : Bool
  glob : Glob

namespace IgnoreRule

/-- The rule applies to the entry seen under the given path. -/
def applies (r : IgnoreRule) (path : Text) (isDirectory : Bool) : Bool :=
  (isDirectory || !r.directoryOnly) && r.glob.isMatch path

/-- The glob for a pattern that is not anchored: without a slash it applies at any depth. -/
def atAnyDepth (body : Text) : Text :=
  if body.contains '/' || body = "**".toList then body else "**/".toList ++ body

/-- The glob for a pattern that ends in two stars: the directory before them is not meant. -/
def belowOnly (body : Text) : Text :=
  if Text.endsWith "/**".toList body then body ++ "/*".toList else body

/-- A rule from a pattern without its marks.  A slash at the end, which may have a backslash before
it, asks for a directory; a pattern that is no glob makes no rule. -/
def ofPattern? (includes anchored : Bool) (pattern : Text) : Option IgnoreRule :=
  let directoryOnly := pattern.getLast? == some '/'
  let body :=
    if Text.endsWith "\\/".toList pattern then pattern.dropLast.dropLast
    else if directoryOnly then pattern.dropLast
    else pattern
  let written := belowOnly (if anchored then body else atAnyDepth body)
  (Glob.ofText? written).map fun glob =>
    { includes := includes, directoryOnly := directoryOnly, glob := glob }

/-- A rule from a pattern that may start with a slash. -/
def ofAnchored? (includes : Bool) : Text → Option IgnoreRule
  | '/' :: pattern => ofPattern? includes true pattern
  | pattern => ofPattern? includes false pattern

/-- The line without white space at its end, unless that is a blank behind a backslash. -/
def trimEnd (line : Text) : Text :=
  if Text.endsWith "\\ ".toList line then line else Text.dropEndWhile isSpace line

/-- The rule of a line; blank lines and comments have none. -/
def ofLine? (line : Text) : Option IgnoreRule :=
  match trimEnd line with
  | [] => none
  | '#' :: _ => none
  | '!' :: pattern => ofAnchored? true pattern
  | '\\' :: '!' :: pattern => ofPattern? false false ('!' :: pattern)
  | '\\' :: '#' :: pattern => ofPattern? false false ('#' :: pattern)
  | pattern => ofAnchored? false pattern

end IgnoreRule

/-- The mark that may stand at the beginning of a file to tell the order of its bytes. -/
def byteOrderMark : Char := '\ufeff'

/-- The rules of an ignore file; those behind an ill-formed line do not count. -/
def ignoreRules (content : Bytes) : List IgnoreRule :=
  match Utf8.soundLines content with
  | [] => []
  | first :: rest => (first.dropWhile (· == byteOrderMark) :: rest).filterMap IgnoreRule.ofLine?

/-- What rules say about an entry. -/
inductive Verdict where
  | ignored
  | included
  deriving DecidableEq, Repr

/-- What the last rule that applies says. -/
def judge (rules : List IgnoreRule) (path : Text) (isDirectory : Bool) : Option Verdict :=
  (rules.reverse.find? fun r => r.applies path isDirectory).map fun r =>
    if r.includes then .included else .ignored

/-! ### Written paths -/

namespace Path

/-- The current directory. -/
def current : Path := ⟨['.']⟩

/-- The path without the current directory as its first step. -/
def dropCurrent (p : Path) : Path :=
  ⟨Text.dropStart "./".toList p.text⟩

/-- The path as seen from a directory, both as written.  Where the directory is not the beginning
of the path, or is the current one, the whole path is seen. -/
def seenFrom (p directory : Path) : Path :=
  if directory.same current || !p.text.contains '/' then p
  else
    match Text.after? directory.text p.text with
    | some rest => ⟨Text.dropStart ['/'] rest⟩
    | none => p

/-- The path of a location. -/
def ofLocation (loc : Location) : Path :=
  ⟨'/' :: Text.join ['/'] loc⟩

end Path

/-! ### Directories -/

/-- The rules a directory holds, and whether it is the top of a repository. -/
structure IgnoreLayer where
  directory : Path
  rules : List IgnoreRule
  gitRules : List IgnoreRule
  excludeRules : List IgnoreRule
  isRepository : Bool

namespace IgnoreLayer

/-- The rules of a file; one that cannot be read has none. -/
def rulesOf (content : Except DiskFault Bytes) : List IgnoreRule :=
  match content with
  | .ok content => ignoreRules content
  | .error _ => []

/-- The first line of a file. -/
def firstLine? (content : Except DiskFault Bytes) : Option Text :=
  match content with
  | .ok content => (Utf8.soundLines content).head?
  | .error _ => none

/-- The directory with what the work trees of a repository share, from the file that stands for
the repository in one of them. -/
def sharedDirectory? (d : Disk) (content : Except DiskFault Bytes) : Option Path := do
  let line ← firstLine? content
  let own : Path := ⟨← Text.after? "gitdir: ".toList line⟩
  let shared : Path := ⟨← firstLine? (d.read (own.join ⟨"commondir".toList⟩))⟩
  return if shared.text.head? == some '.' then own.join shared else shared

/-- The rules of a repository that are not part of it. -/
def excludeRulesOf (d : Disk) (loc : Location) : Option Item → List IgnoreRule
  | some .directory =>
    rulesOf (d.readBelow loc [".git".toList, "info".toList, "exclude".toList])
  | some item =>
    match sharedDirectory? d (Disk.contentOf item) with
    | some shared => rulesOf (d.read (shared.join ⟨"info/exclude".toList⟩))
    | none => []
  | none => []

/-- The rules of a directory that is walked. -/
def ofDirectory (d : Disk) (gitIgnore : Bool) (directory : Path) (loc : Location) :
    IgnoreLayer :=
  let repository :=
    match d.follow Disk.maxLinks loc [".git".toList] with
    | .ok (_, item) => item
    | .error _ => none
  { directory := directory.dropCurrent
    rules := rulesOf (d.readBelow loc [".ignore".toList])
    gitRules := if gitIgnore then rulesOf (d.readBelow loc [".gitignore".toList]) else []
    excludeRules := excludeRulesOf d loc repository
    isRepository := repository.isSome }

/-- The rules of a directory around a root: it counts as a repository only if the files of
repositories are asked for. -/
def ofSurrounding (d : Disk) (gitIgnore : Bool) (loc : Location) : IgnoreLayer :=
  let layer := ofDirectory d gitIgnore (.ofLocation loc) loc
  { layer with isRepository := gitIgnore && layer.isRepository }

/-- The layers of the directories around a location, innermost first. -/
def around (d : Disk) (gitIgnore : Bool) (loc : Location) : List IgnoreLayer :=
  (List.range loc.length).reverse.map fun n => ofSurrounding d gitIgnore (loc.take n)

end IgnoreLayer

/-! ### Scopes -/

/-- The rules that count in a directory below a root. -/
structure IgnoreScope where
  /-- The root as it was written. -/
  root : Path
  /-- Where the root is stored. -/
  origin : Location
  /-- The layers of the directories from the current one out to the root. -/
  walked : List IgnoreLayer
  /-- The layers of the directories around the root, innermost first. -/
  surrounding : List IgnoreLayer

namespace IgnoreScope

/-- The scope of a root. -/
def ofRoot (d : Disk) (gitIgnore : Bool) (root : Path) (loc : Location) : IgnoreScope where
  root := root
  origin := loc
  walked := [.ofDirectory d gitIgnore root loc]
  surrounding := IgnoreLayer.around d gitIgnore loc

/-- The scope of a directory in the current one. -/
def enter (scope : IgnoreScope) (d : Disk) (gitIgnore : Bool) (directory : Path)
    (loc : Location) : IgnoreScope :=
  { scope with walked := .ofDirectory d gitIgnore directory loc :: scope.walked }

/-- The path of an entry from the root of the file system. -/
def stored (scope : IgnoreScope) (entry : Path) : Path :=
  let below :=
    if scope.root.same .current then entry
    else
      let front := scope.root.dropCurrent.text
      ⟨Text.dropStart ['/'] (Text.dropStart front entry.text)⟩
  (Path.ofLocation scope.origin).join below

/-- The layers, innermost first, each with an entry as it is seen from there. -/
def views (scope : IgnoreScope) (entry : Path) : List (IgnoreLayer × Path) :=
  let entry := entry.dropCurrent
  scope.walked.map (fun layer => (layer, entry.dropCurrent.seenFrom layer.directory))
    ++ scope.surrounding.map fun layer =>
      (layer, (scope.stored entry).seenFrom layer.directory)

/-- What the innermost layer with a rule that applies says. -/
def judgeIn (rules : IgnoreLayer → List IgnoreRule) (isDirectory : Bool)
    (views : List (IgnoreLayer × Path)) : Option Verdict :=
  views.findSome? fun (layer, seen) => judge (rules layer) seen.text isDirectory

/-- The layers up to the top of the innermost repository. -/
def repository : List (IgnoreLayer × Path) → List (IgnoreLayer × Path)
  | [] => []
  | view :: outer => if view.1.isRepository then [view] else view :: repository outer

/-- The layers whose repository rules count: none outside of repositories. -/
def tracked (views : List (IgnoreLayer × Path)) : List (IgnoreLayer × Path) :=
  if views.any (·.1.isRepository) then repository views else []

/-- What the layers say about an entry of the current directory: rules of their own win over those
of the repository. -/
def verdict (scope : IgnoreScope) (entry : Path) (isDirectory : Bool) : Option Verdict :=
  let views := scope.views entry
  judgeIn IgnoreLayer.rules isDirectory views
    <|> judgeIn IgnoreLayer.gitRules isDirectory (tracked views)
    <|> judgeIn IgnoreLayer.excludeRules isDirectory (tracked views)

end IgnoreScope

end CartTokens
