import CartTokens.Text.Decimal

/-!
# JSON values

JSON values with integers as their only numbers, and the two ways they are written: in one line
without blanks, and indented by two blanks a level.
-/

namespace CartTokens

/-- A JSON value. -/
inductive Json where
  | number (n : Int)
  | string (t : Text)
  | array (items : List Json)
  | object (members : List (Text × Json))

namespace Json

/-- The digit of a number below sixteen. -/
def hexDigit (n : Nat) : Char :=
  Char.ofNat (if n < 10 then '0'.toNat + n else 'a'.toNat + (n - 10))

/-- A character inside a string. -/
def escape (c : Char) : Text :=
  if c = '\x22' then ['\\', '\x22']
  else if c = '\\' then ['\\', '\\']
  else if c = '\x08' then ['\\', 'b']
  else if c = '\x0c' then ['\\', 'f']
  else if c = '\n' then ['\\', 'n']
  else if c = '\r' then ['\\', 'r']
  else if c = '\t' then ['\\', 't']
  else if c.toNat < 0x20 then
    ['\\', 'u', '0', '0', hexDigit (c.toNat / 16), hexDigit (c.toNat % 16)]
  else [c]

/-- A string with its quotation marks. -/
def quote (t : Text) : Text :=
  '\x22' :: t.flatMap escape ++ ['\x22']

/-! ### In one line -/

mutual

/-- The value in one line. -/
def compact : Json → Text
  | .number n => Text.ofInt n
  | .string t => quote t
  | .array items => '[' :: compactItems items ++ [']']
  | .object members => '\x7b' :: compactMembers members ++ ['\x7d']

/-- Items with commas between. -/
def compactItems : List Json → Text
  | [] => []
  | [v] => compact v
  | v :: vs => compact v ++ ',' :: compactItems vs

/-- Members with commas between. -/
def compactMembers : List (Text × Json) → Text
  | [] => []
  | [(key, v)] => quote key ++ ':' :: compact v
  | (key, v) :: rest => quote key ++ ':' :: compact v ++ ',' :: compactMembers rest

end

/-! ### Indented -/

/-- A line break and the blanks of a level. -/
def newline (level : Nat) : Text :=
  '\n' :: List.replicate (2 * level) ' '

mutual

/-- The value on the given level. -/
def indented (level : Nat) : Json → Text
  | .number n => Text.ofInt n
  | .string t => quote t
  | .array [] => "[]".toList
  | .array (v :: vs) => '[' :: indentedItems (level + 1) (v :: vs) ++ newline level ++ [']']
  | .object [] => "\x7b\x7d".toList
  | .object (m :: ms) =>
    '\x7b' :: indentedMembers (level + 1) (m :: ms) ++ newline level ++ ['\x7d']

/-- Items, each on a line of its own. -/
def indentedItems (level : Nat) : List Json → Text
  | [] => []
  | [v] => newline level ++ indented level v
  | v :: vs => newline level ++ indented level v ++ ',' :: indentedItems level vs

/-- Members, each on a line of its own. -/
def indentedMembers (level : Nat) : List (Text × Json) → Text
  | [] => []
  | [(key, v)] => newline level ++ quote key ++ ": ".toList ++ indented level v
  | (key, v) :: rest =>
    newline level ++ quote key ++ ": ".toList ++ indented level v
      ++ ',' :: indentedMembers level rest

end

/-- The value over several lines, indented by two blanks a level. -/
def pretty (v : Json) : Text :=
  indented 0 v

end Json

end CartTokens
