import CartTokens.Count
import CartTokens.Log
import CartTokens.Report
import Std.Data.HashMap

/-!
# Workspaces

A workspace holds the counted files of a project, one for each name, in the order in which the
names first came.  A later file of a name takes the place of the earlier one.  Files on disk
come first, then texts in memory, which therefore win over files of the same name.
-/

namespace CartTokens

/-- A text in memory that wins over the file of its name. -/
structure Buffer where
  name : Text
  text : Text
  deriving DecidableEq, Repr

/-- The entry of a buffer. -/
def Buffer.entry (b : Buffer) : Entry :=
  .ofName b.name (countText b.text)

/-- Counted files, with the position of each name among them. -/
structure Workspace where
  budget : Budget
  positions : Std.HashMap Text Nat := ∅
  files : Array Entry := #[]

namespace Workspace

/-- The file of a name. -/
def get? (w : Workspace) (name : Text) : Option Entry :=
  w.positions[name]?.bind fun i => w.files[i]?

/-- Puts a file into the workspace, in the place of the one with its name if there is one;
gives the tokens of that one. -/
def insert (w : Workspace) (file : Entry) : Option Nat × Workspace :=
  match w.positions[file.name]? with
  | some i =>
    (w.files[i]?.map Entry.tokens, { w with files := w.files.setIfInBounds i file })
  | none =>
    (none,
      { w with
        positions := w.positions.insert file.name w.files.size
        files := w.files.push file })

/-- Puts in one file found on disk; a second one of a name is worth a warning. -/
def seedOne (w : Workspace) (file : Entry) : Logged Workspace := do
  let (previous, next) := w.insert file
  if previous.isSome then
    Logged.record .warn
      ("duplicate file name '".toList ++ file.name ++ "' on disk; keeping the last one".toList)
  return next

/-- Puts in the files found on disk. -/
def seed (w : Workspace) (files : List Entry) : Logged Workspace :=
  files.foldlM seedOne w

/-- Puts in one buffer. -/
def overrideOne (w : Workspace) (buffer : Buffer) : Logged Workspace := do
  let (previous, next) := w.insert buffer.entry
  match previous with
  | some tokens =>
    Logged.record .debug
      (buffer.name ++ ": in-memory buffer replaces ".toList ++ Text.ofNat tokens
        ++ " tokens on disk".toList)
  | none => Logged.record .debug (buffer.name ++ ": in-memory buffer only".toList)
  return next

/-- Puts in buffers. -/
def override (w : Workspace) (buffers : List Buffer) : Logged Workspace :=
  buffers.foldlM overrideOne w

/-- The tokens of all files. -/
def total (w : Workspace) : Nat :=
  (w.files.toList.map Entry.tokens).sum

/-- The report on the workspace. -/
def report (w : Workspace) : Logged Report := do
  let r := Report.ofEntries w.files.toList w.budget
  Logged.record .info
    (Text.ofNat r.files.length ++ " files, ".toList ++ Text.ofNat r.total ++ " / ".toList
      ++ Text.ofNat r.limit ++ " tokens (".toList ++ Text.ofInt r.remaining
      ++ " remaining)".toList)
  return r

/-- The report on files found on disk and buffers over them. -/
def aggregate (files : List Entry) (buffers : List Buffer) (budget : Budget) :
    Logged Report := do
  let seeded ← seed { budget := budget } files
  let all ← seeded.override buffers
  all.report

end Workspace

end CartTokens
