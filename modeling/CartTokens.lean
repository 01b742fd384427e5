import CartTokens.Bundle
import CartTokens.CommandLine.Parser
import CartTokens.Count
import CartTokens.Disk
import CartTokens.Format
import CartTokens.Format.Explanation
import CartTokens.Json.Report
import CartTokens.Main
import CartTokens.Program
import CartTokens.Survey
import CartTokens.Walk
import CartTokens.Watch
import CartTokens.Workspace
import CartTokens.Proofs.ContentLines
import CartTokens.Proofs.Cartridge
import CartTokens.Proofs.Layout
import CartTokens.Proofs.Comment
import CartTokens.Proofs.Count
import CartTokens.Proofs.Header
import CartTokens.Proofs.Explanation
import CartTokens.Proofs.Lexeme
import CartTokens.Proofs.Scan
import CartTokens.Proofs.Merge
import CartTokens.Proofs.Kind
import CartTokens.Proofs.Rescan
import CartTokens.Proofs.Bound
import CartTokens.Proofs.Workspace
import CartTokens.Proofs.Path
import CartTokens.Proofs.Watch
import CartTokens.Proofs.Delivery
import CartTokens.Proofs.Disk
import CartTokens.Proofs.Budget
import CartTokens.Proofs.Section
import CartTokens.Proofs.Bundle
import CartTokens.Proofs.BundleCount
import CartTokens.Proofs.JsonScalar
import CartTokens.Proofs.JsonSpelling
import CartTokens.Proofs.JsonReader
import CartTokens.Proofs.JsonReport
import CartTokens.Proofs.Passage
import CartTokens.Proofs.CommentLine
import CartTokens.Proofs.Number
import CartTokens.Proofs.Opaque
import CartTokens.Proofs.Joint
import CartTokens.Proofs.Seam
import CartTokens.Proofs.MergedLine
import CartTokens.Proofs.Quotation
import CartTokens.Proofs.Extraction
import CartTokens.Proofs.Glyphs
import CartTokens.Proofs.Splitting
import CartTokens.Proofs.Conflict
import CartTokens.Proofs.StableSort
import CartTokens.Proofs.Survey
import CartTokens.Proofs.Order
import CartTokens.Proofs.Separated
import CartTokens.Proofs.JsonValue
import CartTokens.Proofs.JsonLines
import CartTokens.Proofs.Markdown
import CartTokens.Proofs.Percent
import CartTokens.Proofs.Extension
import CartTokens.Proofs.Blank
import CartTokens.Proofs.Dots
import CartTokens.Proofs.Thousands
import CartTokens.Proofs.Criteria
