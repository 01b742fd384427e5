import CartTokens.Report

/-!
# Separated values

A report as records of two fields, the count and the name, separated by commas or tabs.
-/

namespace CartTokens

/-- What separates the fields of a record. -/
inductive Separator where
  | comma
  | tab
  deriving DecidableEq, Repr

namespace Separator

/-- The character that separates fields. -/
def char : Separator → Char
  | .comma => ','
  | .tab => '\t'

/-- A field that needs quotation marks between commas. -/
def needsQuotes (field : Text) : Bool :=
  field.contains ',' || field.contains '\x22' || field.contains '\n'

/-- A field in quotation marks, those inside it doubled. -/
def quote (field : Text) : Text :=
  '\x22' :: field.flatMap (fun c => if c = '\x22' then ['\x22', '\x22'] else [c]) ++ ['\x22']

/-- A name as a field; between tabs it is never quoted. -/
def field : Separator → Text → Text
  | .comma, name => if needsQuotes name then quote name else name
  | .tab, name => name

/-- A record. -/
def record (s : Separator) (count name : Text) : Text :=
  count ++ [s.char] ++ name

/-- The report as separated values. -/
def render (s : Separator) (r : Report) : Text :=
  Text.join ['\n']
    (s.record "tokens".toList "name".toList
      :: r.files.map (fun e => s.record (Text.ofNat e.tokens) (s.field e.name))
      ++ [s.record (Text.ofNat r.total) "TOTAL".toList,
          s.record (Text.ofInt r.remaining) "REMAINING".toList])

end Separator

end CartTokens
