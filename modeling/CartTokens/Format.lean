import CartTokens.Format.JsonLines
import CartTokens.Format.Markdown
import CartTokens.Format.Separated
import CartTokens.Format.Table
import CartTokens.Format.Yaml
import CartTokens.Order

/-!
# Output formats

The formats a report can be given out in.  The entries are put into order first.
-/

namespace CartTokens

/-- The formats of reports. -/
inductive OutputFormat where
  | table
  | markdown
  | json
  | yaml
  | jsonLines
  | csv
  | tsv
  deriving DecidableEq, Repr

namespace OutputFormat

/-- All formats with the words that select them. -/
def choices : List (Text × OutputFormat) :=
  [("table".toList, .table), ("md".toList, .markdown), ("json".toList, .json),
   ("yaml".toList, .yaml), ("jsonl".toList, .jsonLines), ("csv".toList, .csv),
   ("tsv".toList, .tsv)]

/-- The report as it stands in a format. -/
def write : OutputFormat → Report → Text
  | .table, r => Table.render r
  | .markdown, r => Markdown.render r
  | .json, r => r.toJson.pretty
  | .yaml, r => Yaml.render r
  | .jsonLines, r => JsonLines.render r
  | .csv, r => Separator.comma.render r
  | .tsv, r => Separator.tab.render r

end OutputFormat

/-- The report with its entries in order. -/
def Report.sorted (r : Report) (spec : SortSpec) : Report :=
  { r with files := spec.sort r.files }

/-- The report in a format, its entries in order. -/
def Report.render (r : Report) (format : OutputFormat) (spec : SortSpec) : Text :=
  format.write (r.sorted spec)

end CartTokens
