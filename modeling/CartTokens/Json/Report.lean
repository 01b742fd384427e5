import CartTokens.Json.Reader
import CartTokens.Json.Skip
import CartTokens.Json.Value
import CartTokens.Report

/-!
# Reports as JSON

How entries and reports are written as JSON, and how reports are read.  Members come in the
order in which they are declared, and an entry without a path has no member for it.  When
read, members may come in any order, unknown ones are skipped, and a value may also be the
array of its fields.
-/

namespace CartTokens

/-- The members of an entry. -/
def Entry.members (e : Entry) : List (Text × Json) :=
  [("name".toList, .string e.name), ("tokens".toList, .number e.tokens)]
    ++ (e.path.map fun p => ("path".toList, Json.string p.text)).toList

/-- The entry as JSON. -/
def Entry.toJson (e : Entry) : Json := .object e.members

/-- The report as JSON. -/
def Report.toJson (r : Report) : Json :=
  .object
    [("total".toList, .number r.total), ("limit".toList, .number r.limit),
     ("remaining".toList, .number r.remaining),
     ("files".toList, .array (r.files.map Entry.toJson))]

open JsonReader

/-- Reads a member once: a second one of the same name is refused before its value is read. -/
def readOnce {α : Type} (known : Option α) (reader : JsonReader α) :
    JsonReader (Option α) := fun t =>
  if known.isSome then .error .mismatched
  else do
    let (a, rest) ← reader (← colon t)
    return (some a, rest)

/-- Skips the value of a member. -/
def skipMember (t : Text) : Except JsonFault Text := do
  let rest ← colon t
  skipValue (2 * rest.length + 2) rest

/-- A field that must be there. -/
def present {α : Type} (field : Option α) : Except JsonFault α :=
  match field with
  | some a => .ok a
  | none => .error .mismatched

/-! ### Entries -/

/-- The fields of an entry read so far. -/
structure EntryFields where
  name : Option Text := none
  tokens : Option Nat := none
  path : Option (Option Text) := none

/-- Reads a member of an entry. -/
def EntryFields.member (f : EntryFields) (key t : Text) :
    Except JsonFault (EntryFields × Text) := do
  if key = "name".toList then
    let (name, rest) ← readOnce f.name string t
    return ({ f with name := name }, rest)
  else if key = "tokens".toList then
    let (tokens, rest) ← readOnce f.tokens unsigned t
    return ({ f with tokens := tokens }, rest)
  else if key = "path".toList then
    let (path, rest) ← readOnce f.path (nullable string) t
    return ({ f with path := path }, rest)
  else
    return (f, ← skipMember t)

/-- Reads an entry after the brace that opens it. -/
def readEntryObject : JsonReader Entry := fun t => do
  let (f, rest) ← members EntryFields.member (t.length + 1) true {} t
  let name ← present f.name
  let tokens ← present f.tokens
  return (⟨name, tokens, (f.path.getD none).map Path.mk⟩, rest)

/-- Reads an entry after the bracket that opens it; its path may be missing. -/
def readEntryArray : JsonReader Entry := fun t => do
  let (name, afterName) ← required string true t
  let (tokens, afterTokens) ← required unsigned false afterName
  match ← nextItem false afterTokens with
  | none => return (⟨name, tokens, none⟩, afterTokens)
  | some rest =>
    let (path, more) ← nullable string rest
    return (⟨name, tokens, path.map Path.mk⟩, more)

/-- Reads an entry. -/
def readEntry : JsonReader Entry := record readEntryObject readEntryArray

/-! ### Reports -/

/-- The fields of a report read so far. -/
structure ReportFields where
  total : Option Nat := none
  limit : Option Nat := none
  remaining : Option Int := none
  files : Option (List Entry) := none

/-- Reads a member of a report. -/
def ReportFields.member (f : ReportFields) (key t : Text) :
    Except JsonFault (ReportFields × Text) := do
  if key = "total".toList then
    let (total, rest) ← readOnce f.total unsigned t
    return ({ f with total := total }, rest)
  else if key = "limit".toList then
    let (limit, rest) ← readOnce f.limit unsigned t
    return ({ f with limit := limit }, rest)
  else if key = "remaining".toList then
    let (remaining, rest) ← readOnce f.remaining signed t
    return ({ f with remaining := remaining }, rest)
  else if key = "files".toList then
    let (files, rest) ← readOnce f.files (array readEntry) t
    return ({ f with files := files }, rest)
  else
    return (f, ← skipMember t)

/-- Reads a report after the brace that opens it. -/
def readReportObject : JsonReader Report := fun t => do
  let (f, rest) ← members ReportFields.member (t.length + 1) true {} t
  let total ← present f.total
  let limit ← present f.limit
  let remaining ← present f.remaining
  let files ← present f.files
  return (⟨total, limit, remaining, files⟩, rest)

/-- Reads a report after the bracket that opens it. -/
def readReportArray : JsonReader Report := fun t => do
  let (total, afterTotal) ← required unsigned true t
  let (limit, afterLimit) ← required unsigned false afterTotal
  let (remaining, afterRemaining) ← required signed false afterLimit
  let (files, rest) ← required (array readEntry) false afterRemaining
  return (⟨total, limit, remaining, files⟩, rest)

/-- Reads a report from a whole text. -/
def Report.ofJson (t : Text) : Except JsonFault Report :=
  whole (record readReportObject readReportArray) t

end CartTokens
