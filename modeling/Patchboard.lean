import Patchboard.Binary64
import Patchboard.Board.Basic
import Patchboard.Board.Codec
import Patchboard.Board.Edit
import Patchboard.Board.InPlace
import Patchboard.Board.Links
import Patchboard.Board.Scope
import Patchboard.Board.Signature
import Patchboard.CommandLine.Arguments
import Patchboard.CommandLine.Report
import Patchboard.Compile.Function
import Patchboard.Compile.Liveness
import Patchboard.Compile.Lowering
import Patchboard.Compile.Metered
import Patchboard.Compile.Recorded
import Patchboard.Compile.Typing
import Patchboard.Compile.Walk
import Patchboard.Decimal.Layout
import Patchboard.Decimal.Numeral
import Patchboard.Decimal.Shortest
import Patchboard.Diagnostic.Basic
import Patchboard.Diagnostic.Codec
import Patchboard.Graph.Cycle
import Patchboard.Graph.Search
import Patchboard.Json.Basic
import Patchboard.Json.Decode
import Patchboard.Json.Fault
import Patchboard.Json.Printer
import Patchboard.Json.Reader
import Patchboard.Main
import Patchboard.Node.Basic
import Patchboard.Node.Codec
import Patchboard.Node.Id
import Patchboard.Node.Kind
import Patchboard.Node.Tag
import Patchboard.Program.Basic
import Patchboard.Program.Codec
import Patchboard.Program.Operator
import Patchboard.Program.Outline
import Patchboard.Source.Lexeme
import Patchboard.Source.Options
import Patchboard.Source.Scribe
import Patchboard.Source.Writer
import Patchboard.Text.Alphabetic
import Patchboard.Text.Combining
import Patchboard.Text.Name
import Patchboard.Text.Numeric
import Patchboard.Text.Quoted
import Patchboard.Text.Ranges
import Patchboard.Text.Unprintable
import Patchboard.Proofs.Graph.Acyclic
import Patchboard.Proofs.Board.Links
import Patchboard.Proofs.Compile.Counting
import Patchboard.Proofs.Compile.Functions
import Patchboard.Proofs.Compile.Interpretation
import Patchboard.Proofs.Compile.Meaning
import Patchboard.Proofs.Board.Changes
import Patchboard.Proofs.Board.Placement
import Patchboard.Proofs.Board.Runs
import Patchboard.Proofs.Board.Checked
import Patchboard.Proofs.Board.Slots
import Patchboard.Proofs.Board.InPlace
import Patchboard.Proofs.Board.Views
import Patchboard.Proofs.Board.Unplugging
import Patchboard.Proofs.Board.Plugging
import Patchboard.Proofs.Board.Scrubbing
import Patchboard.Proofs.Compile.Completeness
import Patchboard.Proofs.Compile.Stalling
import Patchboard.Proofs.Compile.Success
import Patchboard.Proofs.Compile.Mentions
import Patchboard.Proofs.Compile.Precedence
import Patchboard.Proofs.Compile.Scoping
import Patchboard.Proofs.Compile.Faults
import Patchboard.Proofs.Compile.Diagnosis
import Patchboard.Proofs.Compile.Cycles
import Patchboard.Proofs.Compile.Dependence
import Patchboard.Proofs.Compile.Knots
import Patchboard.Proofs.Compile.Composition
import Patchboard.Proofs.Compile.Nesting
import Patchboard.Proofs.Compile.Chains
import Patchboard.Proofs.Compile.Metered
import Patchboard.Proofs.Compile.Walk
import Patchboard.Proofs.Compile.References
import Patchboard.Proofs.Compile.Recorded
import Patchboard.Proofs.Compile.Counters
import Patchboard.Proofs.Decimal.Digits
import Patchboard.Proofs.Decimal.Rounding
import Patchboard.Proofs.Decimal.Shortest
import Patchboard.Proofs.Decimal.TotalOrder
import Patchboard.Proofs.Compile.Positions
import Patchboard.Proofs.Compile.Signatures
import Patchboard.Proofs.Source.Scanning
import Patchboard.Proofs.Source.Lexemes
import Patchboard.Proofs.Source.Spacing
import Patchboard.Proofs.Source.Grammar
import Patchboard.Proofs.Source.Printing
import Patchboard.Proofs.Source.Unambiguity
import Patchboard.Proofs.Source.Reading
import Patchboard.Proofs.Source.Parentheses
import Patchboard.Proofs.Source.Escapes
import Patchboard.Proofs.Source.Scribe
import Patchboard.Proofs.CommandLine.Compile
import Patchboard.Proofs.Json.Decode
import Patchboard.Proofs.Json.Order
import Patchboard.Proofs.Json.Numbers
import Patchboard.Proofs.Node.Codec
import Patchboard.Proofs.Board.Codec
import Patchboard.Proofs.Board.FreshIds
import Patchboard.Proofs.Program.Codec
