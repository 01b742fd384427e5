import CartTokens.Cartridge
import CartTokens.Text.Word

/-!
# Sections

A line of two underscores, a word and two underscores begins a section, which is named by that
line and runs to the next such line.  The lines before the first one are code.  Where a name
comes more than once, only its last section stays.
-/

namespace CartTokens

/-- A named part of a cartridge. -/
structure Section where
  name : Text
  body : Text
  deriving DecidableEq, Repr

namespace Section

/-- The line begins a section. -/
def isMarker (line : Text) : Bool :=
  5 ≤ line.length && line.take 2 == ['_', '_'] && line.drop (line.length - 2) == ['_', '_']
    && line.all isWordChar

/-- The lines in blocks, each under the marker it follows; the first block is under `name`. -/
def blocks (name : Text) : List Text → List (Text × List Text)
  | [] => [(name, [])]
  | line :: rest =>
    if isMarker line then (name, []) :: blocks line rest
    else
      match blocks name rest with
      | [] => [(name, [line])]
      | (first, body) :: others => (first, line :: body) :: others

/-- The sections that no later section has the name of. -/
def lastOnly : List Section → List Section
  | [] => []
  | s :: rest => if rest.any (·.name == s.name) then lastOnly rest else s :: lastOnly rest

/-- The sections of a cartridge. -/
def split (t : Text) : List Section :=
  lastOnly <|
    (blocks Cartridge.codeMarker (Text.lines t)).map fun (name, body) =>
      ⟨name, Text.join ['\n'] body⟩

/-- The body of the section with the given name. -/
def body? (sections : List Section) (name : Text) : Option Text :=
  (sections.find? (·.name == name)).map Section.body

end Section

end CartTokens
