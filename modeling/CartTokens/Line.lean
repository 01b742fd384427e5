import CartTokens.Lexeme
import CartTokens.Token.Kind
import CartTokens.Token.Merge

/-!
# Lines of code

One line of code: its comment taken off, its raw tokens, its merged tokens with their kinds,
and what it costs.
-/

namespace CartTokens

namespace Line

/-- The text begins with the mark of a line comment. -/
def startsComment (t : Text) : Bool :=
  lineMarkers.any fun mark => Text.startsWith mark t

/-- The line is blank or holds only a comment. -/
def isIdle (line : Text) : Bool :=
  (Text.trim line).isEmpty || startsComment (Text.trim line)

/-- The line up to the first mark of a comment, also where that mark stands in a string. -/
def stripComment : Text → Text
  | [] => []
  | c :: cs =>
    if startsComment (c :: cs) then [] else c :: stripComment cs

/-- Several tokens that are all glyphs become one name. -/
def collapse (ts : List Raw) : List Raw :=
  if 1 < ts.length && ts.all fun t => isGlyphRun t.text then
    [⟨.identifier, ts.flatMap Raw.text⟩]
  else ts

/-- The code of a line: without its comment and without white space at the ends. -/
def code (line : Text) : Text :=
  Text.trim (stripComment line)

/-- The raw tokens of a line. -/
def raws (line : Text) : List Raw :=
  if isIdle line then [] else collapse (scan (code line))

/-- The merged tokens of a line. -/
def merged (line : Text) : List Text :=
  merge ((raws line).map Raw.text)

/-- The tokens of a line with their kinds; brackets that close and separators are left out. -/
def tokens (line : Text) : List Token :=
  ((merged line).filter fun t => !structural.contains t).map Token.ofText

/-- What the line costs. -/
def count (line : Text) : Nat :=
  ((tokens line).map Token.weight).sum

end Line

end CartTokens
