import CartTokens.Vocabulary

/-!
# Kinds of tokens

The kind of a merged token is read off its text alone, and the kind says what the token weighs.
-/

namespace CartTokens

/-- The kinds of tokens. -/
inductive Kind where
  | literal
  | operator
  | symbol
  | keyword
  | number
  | string
  | glyphs
  | identifier
  | elided
  | invalid
  deriving DecidableEq, Repr

namespace Kind

/-- What a token of this kind costs. -/
def weight : Kind → Nat
  | .elided => 0
  | _ => 1

/-- The word for the kind. -/
def label : Kind → Text
  | .literal => "literal".toList
  | .operator => "operator".toList
  | .symbol => "symbol".toList
  | .keyword => "keyword".toList
  | .number => "number".toList
  | .string => "string".toList
  | .glyphs => "emoji".toList
  | .identifier => "identifier".toList
  | .elided => "elided".toList
  | .invalid => "invalid".toList

/-- The kind of a token; the first rule that applies decides. -/
def ofText (t : Text) : Kind :=
  if t.isEmpty || structural.contains t || elidedWords.contains t then .elided
  else if literals.contains t then .literal
  else if operators.contains t then .operator
  else if symbols.contains t then .symbol
  else if keywords.contains t then .keyword
  else if isNumber t then .number
  else if isString t then .string
  else if isGlyphRun t then .glyphs
  else if isName t then .identifier
  else .invalid

end Kind

/-- A token with its kind. -/
structure Token where
  text : Text
  kind : Kind
  deriving DecidableEq, Repr

/-- What the token costs. -/
def Token.weight (t : Token) : Nat := t.kind.weight

/-- The token with the given text. -/
def Token.ofText (t : Text) : Token := ⟨t, Kind.ofText t⟩

end CartTokens
