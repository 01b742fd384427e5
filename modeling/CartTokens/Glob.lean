import CartTokens.Text.Utf8

/-!
# Globs

A glob is a pattern for written paths.  It is compared byte by byte: a question mark stands for
one byte other than a slash, a star for any number of them, brackets for one byte of a set, two
stars between slashes for any directories, and braces for a choice between patterns.  A backslash
takes the next character as it is.

A part of a glob may take several beginnings of the same path, so `GlobPart.leftovers` gives all
that can be left of it; a path matches if nothing can be left.
-/

namespace CartTokens

/-- A part of a glob. -/
inductive GlobPart where
  | literal (c : Char)
  /-- One byte that is no slash. -/
  | anyByte
  /-- Any number of bytes that are no slashes. -/
  | anyBytes
  /-- One byte in, or with `negated` outside of, what the ranges of characters hold. -/
  | oneOf (negated : Bool) (ranges : List (Char × Char))
  /-- Any directories at the front, with the slash after them. -/
  | anyFront
  /-- All there is below a directory, with the slash before it. -/
  | anyBelow
  /-- Any directories in between, with the slashes around them. -/
  | anyBetween
  | choice (branches : List (List GlobPart))

/-- A pattern for written paths. -/
structure Glob where
  parts : List GlobPart

namespace Glob

/-! ### Matching -/

/-- The byte of a slash. -/
def slash : UInt8 := 0x2f

/-- What is left behind any number of bytes. -/
def suffixes : Bytes → List Bytes
  | [] => [[]]
  | b :: bs => (b :: bs) :: suffixes bs

/-- What is left behind any number of bytes that are no slashes. -/
def suffixesInName : Bytes → List Bytes
  | [] => [[]]
  | b :: bs => (b :: bs) :: if b = slash then [] else suffixesInName bs

/-- What is left behind each slash. -/
def suffixesAfterSlash : Bytes → List Bytes
  | [] => []
  | b :: bs => if b = slash then bs :: suffixesAfterSlash bs else suffixesAfterSlash bs

/-- The ranges of bytes for a range of characters.  They run from the last byte of the first
character to the first byte of the last, and the other bytes of both count one by one. -/
def byteRanges (range : Char × Char) : List Utf8.ByteRange :=
  let first := Utf8.encode [range.1]
  let last := Utf8.encode [range.2]
  if range.1 = range.2 then first.map fun b => ⟨b, b⟩
  else
    first.dropLast.map (fun b => ⟨b, b⟩)
      ++ [⟨first.getLastD 0, last.headD 0⟩]
      ++ last.tail.map fun b => ⟨b, b⟩

/-- The byte lies in one of the ranges. -/
def inRanges (ranges : List (Char × Char)) (b : UInt8) : Bool :=
  (ranges.flatMap byteRanges).any (·.contains b)

mutual

/-- The part stands for nothing: a choice between such parts only. -/
def isVoid : GlobPart → Bool
  | .choice branches => areVoidBranches branches
  | _ => false

/-- All parts stand for nothing. -/
def areVoid : List GlobPart → Bool
  | [] => true
  | part :: parts => isVoid part && areVoid parts

/-- All branches stand for nothing. -/
def areVoidBranches : List (List GlobPart) → Bool
  | [] => true
  | branch :: branches => areVoid branch && areVoidBranches branches

end

mutual

/-- What can be left of some bytes behind a part. -/
def leftovers : GlobPart → Bytes → List Bytes
  | .literal c, bs =>
    let taken := Utf8.encode [c]
    if taken.isPrefixOf bs then [bs.drop taken.length] else []
  | .anyByte, b :: bs => if b = slash then [] else [bs]
  | .anyByte, [] => []
  | .anyBytes, bs => suffixesInName bs
  | .oneOf negated ranges, b :: bs => if inRanges ranges b != negated then [bs] else []
  | .oneOf _ _, [] => []
  | .anyFront, bs => bs :: suffixesAfterSlash bs
  | .anyBelow, b :: bs => if b = slash then suffixes bs else []
  | .anyBelow, [] => []
  | .anyBetween, b :: bs => if b = slash then bs :: suffixesAfterSlash bs else []
  | .anyBetween, [] => []
  | .choice branches, bs =>
    if areVoidBranches branches then [bs] else leftoversOfBranches branches bs

/-- What can be left of any of some bytes behind parts one after another. -/
def leftoversOfParts : List GlobPart → List Bytes → List Bytes
  | [], rests => rests
  | part :: parts, rests =>
    leftoversOfParts parts (rests.flatMap fun bs => leftovers part bs).eraseDups

/-- What can be left of some bytes behind one of the branches; those that stand for nothing are
passed over. -/
def leftoversOfBranches : List (List GlobPart) → Bytes → List Bytes
  | [], _ => []
  | branch :: branches, bs =>
    (if areVoid branch then [] else leftoversOfParts branch [bs])
      ++ leftoversOfBranches branches bs

end

/-- A written path matches the glob.  Any directories alone stand for every path. -/
def isMatch (g : Glob) (path : Text) : Bool :=
  match g.parts with
  | [.anyFront] => true
  | parts => (leftoversOfParts parts [Utf8.encode path]).contains []

/-! ### Reading -/

/-- What has been read of a glob. -/
structure Progress where
  /-- The parts of the innermost open branch. -/
  parts : List GlobPart := []
  /-- The choices that are open, innermost first: the parts before each, and its branches so
  far. -/
  opened : List (List GlobPart × List (List GlobPart)) := []
  /-- A bracket without an end has been read, so brackets stand for themselves. -/
  plainBrackets : Bool := false

namespace Progress

/-- Adds a part. -/
def add (r : Progress) (part : GlobPart) : Progress :=
  { r with parts := r.parts ++ [part] }

/-- Adds two stars that are not alone between slashes. -/
def addTwoStars (r : Progress) : Progress :=
  (r.add .anyBytes).add .anyBytes

/-- Puts any directories in the place of the slash before them. -/
def addAnyDirectories (r : Progress) (deep : GlobPart) : Progress :=
  let kept := r.parts.dropLast
  match r.parts.getLast? with
  | some .anyFront => { r with parts := kept ++ [.anyFront] }
  | some .anyBelow => { r with parts := kept ++ [.anyBelow] }
  | _ => { r with parts := kept ++ [deep] }

/-- Adds two stars, given the characters before and behind them, and tells how many characters
behind them are used up. -/
def twoStars (r : Progress) (before : Option Char) (rest : Text) : Progress × Nat :=
  let inChoice := !r.opened.isEmpty
  if r.parts.isEmpty then
    match rest with
    | [] => (r.add .anyFront, 0)
    | '/' :: _ => (r.add .anyFront, 1)
    | _ => (r.addTwoStars, 0)
  else if before != some '/'
      && !(inChoice && (before == some ',' || before == some '\x7b')) then
    (r.addTwoStars, 0)
  else
    match rest with
    | [] => (r.addAnyDirectories .anyBelow, 0)
    | '/' :: _ => (r.addAnyDirectories .anyBetween, 1)
    | c :: _ =>
      if inChoice && (c = ',' || c = '\x7d') then (r.addAnyDirectories .anyBelow, 0)
      else (r.addTwoStars, 0)

end Progress

/-- What has been read of the ranges in brackets. -/
structure Ranges where
  /-- The ranges, last first. -/
  found : List (Char × Char) := []
  /-- A hyphen has been read that asks for the end of a range. -/
  isOpen : Bool := false

namespace Ranges

/-- Ends the last range at a character; the characters have to be in order. -/
def close? (r : Ranges) (c : Char) : Option Ranges :=
  match r.found with
  | (first, _) :: found =>
    if c < first then none else some { found := (first, c) :: found, isOpen := false }
  | [] => none

/-- Adds a character of its own, or the end of a range. -/
def add? (r : Ranges) (c : Char) : Option Ranges :=
  if r.isOpen then r.close? c else some { r with found := (c, c) :: r.found }

/-- The ranges in order; a hyphen without an end of its range stands for itself. -/
def all (r : Ranges) : List (Char × Char) :=
  (if r.isOpen then ('-', '-') :: r.found else r.found).reverse

/-- Reads ranges up to the closing bracket, and tells the number of characters.  At the front,
hyphens and closing brackets stand for themselves.  There is `some none` without a closing
bracket, and `none` for a range out of order. -/
def read (r : Ranges) (atFront : Bool) : Text → Option (Option (List (Char × Char) × Nat))
  | [] => some none
  | c :: cs => do
    if c = ']' && !atFront then
      return some (r.all, 1)
    let next ← if c = '-' && !atFront && !r.isOpen then some { r with isOpen := true } else r.add? c
    let found ← next.read false cs
    return found.map fun (ranges, count) => (ranges, count + 1)

end Ranges

namespace Progress

/-- Reads the inside of brackets, and tells how many characters are used up; a bracket without an
end stands for itself. -/
def brackets? (r : Progress) (rest : Text) : Option (Progress × Nat) := do
  let negated := rest.head? == some '!' || rest.head? == some '^'
  let mark := if negated then 1 else 0
  match ← Ranges.read {} true (rest.drop mark) with
  | some (ranges, count) => return (r.add (.oneOf negated ranges), count + mark)
  | none => return ({ r.add (.literal '[') with plainBrackets := true }, 0)

/-- Ends the innermost choice. -/
def closeChoice? (r : Progress) : Option Progress :=
  match r.opened with
  | [] => none
  | (before, branches) :: opened =>
    some { r with
      parts := before ++ [.choice (branches ++ [r.parts])]
      opened := opened }

/-- Starts the next branch of the innermost choice; elsewhere a comma stands for itself. -/
def comma (r : Progress) : Progress :=
  match r.opened with
  | [] => r.add (.literal ',')
  | (before, branches) :: opened =>
    { r with parts := [], opened := (before, branches ++ [r.parts]) :: opened }

/-- Reads a character, given the one before it and those behind it, and tells how many of the
latter are used up. -/
def step? (r : Progress) (before : Option Char) (c : Char) (rest : Text) :
    Option (Progress × Nat) :=
  match c with
  | '?' => some (r.add .anyByte, 0)
  | '*' =>
    match rest with
    | '*' :: rest =>
      let (next, count) := r.twoStars before rest
      some (next, count + 1)
    | _ => some (r.add .anyBytes, 0)
  | '[' => if r.plainBrackets then some (r.add (.literal '['), 0) else r.brackets? rest
  | '\x7b' => some ({ r with parts := [], opened := (r.parts, []) :: r.opened }, 0)
  | '\x7d' => r.closeChoice?.map (·, 0)
  | ',' => some (r.comma, 0)
  | '\\' => rest.head?.map fun taken => (r.add (.literal taken), 1)
  | c => some (r.add (.literal c), 0)

/-- Reads all characters. -/
def read? (r : Progress) (before : Option Char) : Text → Option Progress
  | [] => some r
  | c :: rest =>
    match r.step? before c rest with
    | none => none
    | some (next, count) =>
      next.read? (some ((rest.take count).getLastD c)) (rest.drop count)
termination_by t => t.length

end Progress

/-- The glob of a text.  There is none if a range is out of order, a choice is not ended or not
started, or nothing follows a backslash. -/
def ofText? (t : Text) : Option Glob :=
  match Progress.read? {} none t with
  | some { parts := parts, opened := [], .. } => some ⟨parts⟩
  | _ => none

end Glob

end CartTokens
