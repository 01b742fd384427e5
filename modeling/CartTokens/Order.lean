import CartTokens.Report

/-!
# Order of entries

Entries are put into order by a list of criteria: the first on which two entries differ decides,
and entries that agree on all of them keep their order.  Such a list is written as its keys
with commas between, each with an optional direction after a colon.
-/

namespace CartTokens

/-- What entries are compared by. -/
inductive SortKey where
  | name
  | tokens
  deriving DecidableEq, Repr

/-- A key and a direction. -/
structure Criterion where
  key : SortKey
  descending : Bool
  deriving DecidableEq, Repr

/-- Criteria, the most important first. -/
abbrev SortSpec := List Criterion

/-- Entries compared by a key. -/
def SortKey.order : SortKey → Entry → Entry → Ordering
  | .name, a, b => compare a.name b.name
  | .tokens, a, b => compare a.tokens b.tokens

/-- Entries compared by a key in its direction. -/
def Criterion.order (c : Criterion) (a b : Entry) : Ordering :=
  if c.descending then (c.key.order a b).swap else c.key.order a b

namespace SortSpec

/-- By name, ascending. -/
def byName : SortSpec := [⟨.name, false⟩]

/-- Entries compared by criteria: the first on which they differ decides. -/
def order (spec : SortSpec) (a b : Entry) : Ordering :=
  spec.foldr (fun c rest => (c.order a b).then rest) .eq

/-- The entries in order. -/
def sort (spec : SortSpec) (files : List Entry) : List Entry :=
  files.mergeSort fun a b => (order spec a b).isLE

/-! ### Reading -/

/-- A word that is no key. -/
structure UnknownKey where
  word : Text
  deriving DecidableEq, Repr

/-- The wording for a word that is no key. -/
def UnknownKey.message (u : UnknownKey) : Text :=
  "Unknown sort key: ".toList ++ u.word

/-- The key a word stands for, in any case. -/
def readKey (word : Text) : Except UnknownKey SortKey :=
  if Text.lower word = "name".toList then .ok .name
  else if Text.lower word = "tokens".toList || Text.lower word = "count".toList then .ok .tokens
  else .error ⟨Text.lower word⟩

/-- The word of a descending direction. -/
def isDescending (word : Text) : Bool :=
  word == "desc".toList || word == "DESC".toList

/-- One criterion: a key, and after a colon a direction. -/
def readCriterion (part : Text) : Except UnknownKey Criterion :=
  match part.dropWhile (· != ':') with
  | _ :: direction =>
    (readKey (Text.trim (part.takeWhile (· != ':')))).map
      (⟨·, isDescending (Text.trim direction)⟩)
  | [] => (readKey part).map (⟨·, false⟩)

/-- The parts of a written list of criteria that are not blank. -/
def writtenParts (t : Text) : List Text :=
  ((Text.parts ',' t).map Text.trim).filter fun p => !p.isEmpty

/-- Reads criteria; the first bad part is reported. -/
def read (t : Text) : Except UnknownKey SortSpec :=
  (writtenParts t).mapM readCriterion

end SortSpec

end CartTokens
