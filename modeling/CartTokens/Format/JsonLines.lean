import CartTokens.Json.Report

/-!
# JSON lines

A report as one JSON object a line: one for each entry and a last one for the total.  Members
are in the order of their keys, and one of them says which of the two a line is.
-/

namespace CartTokens

namespace JsonLines

/-- The object of an entry. -/
def file (e : Entry) : Json :=
  .object
    ([("name".toList, .string e.name)]
      ++ (e.path.map fun p => ("path".toList, Json.string p.text)).toList
      ++ [("tokens".toList, .number e.tokens), ("type".toList, .string "file".toList)])

/-- The object of the total. -/
def total (r : Report) : Json :=
  .object
    [("files".toList, .number r.files.length), ("limit".toList, .number r.limit),
     ("remaining".toList, .number r.remaining), ("tokens".toList, .number r.total),
     ("type".toList, .string "total".toList), ("version".toList, .string version)]

/-- The report as JSON lines. -/
def render (r : Report) : Text :=
  Text.join ['\n'] (r.files.map (fun e => (file e).compact) ++ [(total r).compact])

end JsonLines

end CartTokens
