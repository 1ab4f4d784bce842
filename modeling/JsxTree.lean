import JsxTree.Grammar
import JsxTree.Node.Json
import JsxTree.Node.Source
import JsxTree.ParseError.Report
import JsxTree.Files.Entry
import JsxTree.Files.Disk
import JsxTree.Text.Hidden
import JsxTree.Command.Request
import JsxTree.Command
import JsxTree.Main
import JsxTree.Proofs.Lexing
import JsxTree.Proofs.Lookahead
import JsxTree.Proofs.Standing
import JsxTree.Proofs.Outcome
import JsxTree.Proofs.Rounds
import JsxTree.Proofs.Derivation
import JsxTree.Proofs.Layout
import JsxTree.Proofs.Answers
import JsxTree.Proofs.Markup
import JsxTree.Proofs.Expressions
import JsxTree.Proofs.Preorder
import JsxTree.Proofs.Spans
import JsxTree.Proofs.RuleContract
import JsxTree.Proofs.Shape
import JsxTree.Proofs.Yields
import JsxTree.Proofs.Completeness
import JsxTree.Proofs.Lexemes
import JsxTree.Proofs.Formed
import JsxTree.Proofs.Printed
import JsxTree.Proofs.Faithful
import JsxTree.Proofs.Heads
import JsxTree.Proofs.Reread
import JsxTree.Proofs.Operands
import JsxTree.Proofs.Tags
import JsxTree.Proofs.Restored
import JsxTree.Proofs.Canonical
import JsxTree.Proofs.Lossless
import JsxTree.Proofs.Bufferless
import JsxTree.Proofs.Positions
import JsxTree.Proofs.Watched
import JsxTree.Proofs.Sited
import JsxTree.Proofs.Seams
import JsxTree.Proofs.Naming
import JsxTree.Proofs.Rejections
import JsxTree.Proofs.Reported
import JsxTree.Proofs.Cutting
import JsxTree.Proofs.Spelling
import JsxTree.Proofs.Carried
import JsxTree.Proofs.Clipped
import JsxTree.Proofs.Occurrences
import JsxTree.Proofs.Tiling
import JsxTree.Proofs.Slices
import JsxTree.Proofs.Pairs
import JsxTree.Proofs.Paired
import JsxTree.Proofs.Limits
import JsxTree.Proofs.Precedence
import JsxTree.Proofs.Quoting
import JsxTree.Proofs.Progress
import JsxTree.Proofs.Asserting
import JsxTree.Proofs.Modes
import JsxTree.Proofs.Hosted
import JsxTree.Proofs.Conservative
import JsxTree.Proofs.Height
import JsxTree.Proofs.Excerpts
import JsxTree.Proofs.Written
import JsxTree.Proofs.Dumped
import JsxTree.Proofs.Requests
import JsxTree.Proofs.Speculation
import JsxTree.Proofs.Spaced
import JsxTree.Proofs.Failures
import JsxTree.Proofs.Doomed
import JsxTree.Proofs.Mistagged
import JsxTree.Proofs.Escapes
import JsxTree.Proofs.Offsets
import JsxTree.Proofs.Indented
import JsxTree.Proofs.Accepted
import JsxTree.Proofs.Agreement
import JsxTree.Proofs.Accounted
import JsxTree.Proofs.Alternation
import JsxTree.Proofs.Folding
import JsxTree.Proofs.SameNames
import JsxTree.Proofs.Rounding
import JsxTree.Proofs.Numerals
import JsxTree.Proofs.NumberTokens
import JsxTree.Proofs.Attached
import JsxTree.Proofs.Segments
import JsxTree.Proofs.Handover
