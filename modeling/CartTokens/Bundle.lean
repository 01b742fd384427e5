import CartTokens.Failure
import CartTokens.Log
import CartTokens.Section
import CartTokens.Text.Decimal

/-!
# Bundles

Several cartridges combined into one.  The code of each becomes a tab under its name; any other
section may come from one of them only.
-/

namespace CartTokens

namespace Bundle

/-- The front of a combined cartridge. -/
def header : Text :=
  "pico-8 cartridge // http://www.pico-8.com\nversion 36\n__lua__\n".toList

/-- The sections besides code, in the order in which they are written. -/
def dataSections : List Text :=
  ["__gfx__", "__label__", "__gff__", "__map__", "__sfx__", "__music__"].map String.toList

/-- The name of a combined cartridge. -/
def defaultName : Text := "combined.p8".toList

/-- The line between tabs of code. -/
def tabSeparator : Text := "-->8".toList

/-- A named cartridge. -/
structure Source where
  name : Text
  text : Text
  deriving DecidableEq, Repr

/-- The tab of code of a source, if it has code. -/
def tab? (source : Source) : Option Text :=
  match Section.body? (Section.split source.text) Cartridge.codeMarker with
  | none => none
  | some body =>
    if (Text.trim body).isEmpty then none
    else
      some (tabSeparator ++ "\n-- ".toList ++ source.name ++ ['\n'] ++ Text.trim body)

/-- The sections besides code that are not empty, in the order in which they are written. -/
def dataOf (source : Source) : List Section :=
  dataSections.filterMap fun name =>
    match Section.body? (Section.split source.text) name with
    | none => none
    | some body => if body.isEmpty then none else some ⟨name, body⟩

/-- The sections found so far, and the names found more than once. -/
structure Gathered where
  found : List Section := []
  conflicts : List Text := []

/-- Takes in one more section. -/
def Gathered.add (g : Gathered) (s : Section) : Gathered :=
  if g.found.any (·.name == s.name) then
    if g.conflicts.contains s.name then g else { g with conflicts := g.conflicts ++ [s.name] }
  else { g with found := g.found ++ [s] }

/-- The sections besides code of all sources. -/
def gather (sources : List Source) : Gathered :=
  (sources.flatMap dataOf).foldl Gathered.add {}

/-- One section as it is written. -/
def writeSection (found : List Section) (name : Text) : Text :=
  match Section.body? found name with
  | none => []
  | some body => '\n' :: name ++ '\n' :: Text.trim body

/-- The combined cartridge of tabs and sections. -/
def assemble (tabs : List Text) (found : List Section) : Text :=
  header ++ Text.join "\n\n".toList tabs ++ dataSections.flatMap (writeSection found)

/-- Combines sources into one cartridge. -/
def combine (sources : List Source) : Logged (Except Failure Text) := do
  if sources.isEmpty then
    return .error .noSelection
  let g := gather sources
  if !g.conflicts.isEmpty then
    return .error (.sectionConflict g.conflicts)
  let tabs := sources.filterMap tab?
  Logged.record .info
    ("combined ".toList ++ Text.ofNat sources.length ++ " files into ".toList
      ++ Text.ofNat tabs.length ++ " code tabs".toList)
  return .ok (assemble tabs g.found)

/-- Where a combined cartridge goes: a cartridge named as such, or its default name in the
named directory, or else in the base directory. -/
def resolveOutput (output : Option Path) (base : Path) : Path :=
  match output with
  | none => base.join ⟨defaultName⟩
  | some path =>
    if path.extension? == some "p8".toList then path else path.join ⟨defaultName⟩

end Bundle

end CartTokens
