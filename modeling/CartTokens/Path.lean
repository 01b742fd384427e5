import CartTokens.Text.Basic

/-!
# Paths

A path is kept as it was written; what it means is its list of components.  Empty components
and dots are no components, except a dot at the front.  Paths are ordered component by
component.
-/

namespace CartTokens

/-- A path as it was written. -/
structure Path where
  text : Text
  deriving DecidableEq, Repr

/-- A component of a path. -/
inductive Component where
  | root
  | here
  | up
  | name (t : Text)
  deriving DecidableEq, Repr

namespace Component

/-- The place of a kind of component in the order of components. -/
def rank : Component → Nat
  | .root => 0
  | .here => 1
  | .up => 2
  | .name _ => 3

/-- The name of a component, empty for those without. -/
def text : Component → Text
  | .name t => t
  | _ => []

instance : Ord Component where
  compare a b := (compare a.rank b.rank).then (compare a.text b.text)

/-- The component a part between slashes stands for, if any. -/
def ofPart? (part : Text) : Option Component :=
  if part = [] || part = ['.'] then none
  else if part = ['.', '.'] then some .up
  else some (.name part)

end Component

namespace Path

/-- The components of a path. -/
def components (p : Path) : List Component :=
  match Text.parts '/' p.text with
  | [] => []
  | first :: rest =>
    let front : List Component :=
      if first = [] && !rest.isEmpty then [.root]
      else if first = ['.'] then [.here]
      else (Component.ofPart? first).toList
    front ++ rest.filterMap Component.ofPart?

/-- Paths in the order of their components. -/
def order (p q : Path) : Ordering :=
  compare p.components q.components

/-- The paths have the same components. -/
def same (p q : Path) : Bool :=
  p.components == q.components

/-- The path starts at the root of the file system. -/
def isAbsolute (p : Path) : Bool :=
  p.text.head? == some '/'

/-- The name of the file the path leads to, if its last component is a name. -/
def fileName? (p : Path) : Option Text :=
  match p.components.getLast? with
  | some (.name t) => some t
  | _ => none

/-- The name of the file, or the whole path where there is none. -/
def fileName (p : Path) : Text :=
  p.fileName?.getD p.text

/-- What follows the last dot of a name, unless that dot is its first character. -/
def extensionOf? (name : Text) : Option Text :=
  let ending := name.reverse.takeWhile (· != '.')
  if ending.length + 1 < name.length then some ending.reverse else none

/-- The extension of the file name. -/
def extension? (p : Path) : Option Text :=
  p.fileName?.bind extensionOf?

/-- The path of `q` seen from `p`. -/
def join (p q : Path) : Path :=
  if q.isAbsolute || p.text.isEmpty then q
  else if p.text.getLast? == some '/' then ⟨p.text ++ q.text⟩
  else ⟨p.text ++ '/' :: q.text⟩

end Path

end CartTokens
