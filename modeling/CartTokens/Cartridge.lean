import CartTokens.Text.Basic

/-!
# Cartridges

A cartridge is a header, code, and sections of data.  This module finds the code: it takes
headers off the front and cuts the text at the first marker of a data section.
-/

namespace CartTokens

namespace Cartridge

/-- The line above the code. -/
def codeMarker : Text := "__lua__".toList

/-- The line above the graphics. -/
def graphicsMarker : Text := "__gfx__".toList

/-- The lines above sections that hold no code. -/
def sectionMarkers : List Text :=
  ["__gfx__", "__gff__", "__label__", "__map__", "__sfx__", "__music__"].map String.toList

/-- The first line that is not blank, trimmed, and the text after that line. -/
def firstLine? : List Text → Option (Text × Text)
  | [] => none
  | p :: ps =>
    if (Text.trim p).isEmpty then firstLine? ps else some (Text.trim p, ps.flatten)

/-- The first line that is not blank announces graphics, so there is no code at all. -/
def isGraphicsOnly (t : Text) : Bool :=
  ((Text.lines t).map Text.trim).find? (fun line => !line.isEmpty) == some graphicsMarker

/-- The first line of a saved cartridge. -/
def isBanner (line : Text) : Bool :=
  Text.startsWith "pico-8 cartridge".toList line

/-- The word `version` and a number. -/
def isVersion (line : Text) : Bool :=
  match Text.after? "version".toList line with
  | some rest => !(Text.trim rest).isEmpty && (Text.trim rest).all Char.isDigit
  | none => false

/-- The text after its first line that is not blank, if that line satisfies `p`; else the
text as it is. -/
def dropLineIf (p : Text → Bool) (t : Text) : Text :=
  match firstLine? (Text.pieces t) with
  | some (line, rest) => if p line then rest else t
  | none => t

/-- The text after its banner and a version line below the banner. -/
def dropBanner (t : Text) : Text :=
  let rest := dropLineIf isBanner t
  if rest.length = t.length then t else dropLineIf isVersion rest

/-- The text after one header. -/
def dropHeader (t : Text) : Text :=
  dropLineIf (· == codeMarker) (dropBanner t)

/-- The text after all headers at its front. -/
def stripHeader (t : Text) : Text :=
  if (dropHeader t).length < t.length then stripHeader (dropHeader t) else t
termination_by t.length

/-- The text before the first line that is the marker of a section without code. -/
def truncateSections (t : Text) : Text :=
  ((Text.pieces t).takeWhile fun p => !sectionMarkers.contains (Text.trim p)).flatten

/-- The code of a cartridge. -/
def code (t : Text) : Text :=
  truncateSections (stripHeader t)

end Cartridge

end CartTokens
