import StarlarkSyntax.CommandLine.Folder
import StarlarkSyntax.Main
import StarlarkSyntax.Proofs.Builder.Since
import StarlarkSyntax.Proofs.Progress.Basic
import StarlarkSyntax.Proofs.Builder.Leaves
import StarlarkSyntax.Proofs.Layout.Scan
import StarlarkSyntax.Proofs.Layout.Text
import StarlarkSyntax.Proofs.Progress.Expression
import StarlarkSyntax.Proofs.Progress.Statement
import StarlarkSyntax.Proofs.Total
import StarlarkSyntax.Proofs.Layout.LineByLine
import StarlarkSyntax.Proofs.Layout.Places
import StarlarkSyntax.Proofs.Lexing.Language
import StarlarkSyntax.Proofs.Lexing.Literal
import StarlarkSyntax.Proofs.Lexing.Munch
import StarlarkSyntax.Proofs.Builder.Describe
import StarlarkSyntax.Proofs.Builder.Drawn
import StarlarkSyntax.Proofs.Grammar.Stage
import StarlarkSyntax.Proofs.Grammar.Whole
import StarlarkSyntax.Proofs.Print.RoundTrip
import StarlarkSyntax.Proofs.Spans
import StarlarkSyntax.Proofs.Append.Layout
import StarlarkSyntax.Proofs.Append.Parse
import StarlarkSyntax.Proofs.Append.Statements
import StarlarkSyntax.Proofs.Trivia.Insert
import StarlarkSyntax.Proofs.LineEnds.Reading
import StarlarkSyntax.Proofs.Errors.Order
import StarlarkSyntax.Proofs.Errors.Lexical
import StarlarkSyntax.Proofs.Builder.Usage
import StarlarkSyntax.Proofs.Checked.Parse
import StarlarkSyntax.Proofs.Builder.Rollback
import StarlarkSyntax.Proofs.Builder.Lineage
import StarlarkSyntax.Proofs.Progress.Rules
import StarlarkSyntax.Proofs.Recast.Basic
import StarlarkSyntax.Proofs.Recast.Chain
import StarlarkSyntax.Proofs.Recast.Operation
import StarlarkSyntax.Proofs.Recast.Expression
import StarlarkSyntax.Proofs.Lexing.Extent
import StarlarkSyntax.Proofs.Layout.Blocks
import StarlarkSyntax.Proofs.Forms
import StarlarkSyntax.Proofs.Suites
import StarlarkSyntax.Proofs.Nesting.Parse
import StarlarkSyntax.Proofs.Report.Notes
import StarlarkSyntax.Proofs.CommandLine.Entries
import StarlarkSyntax.Proofs.Diagnostic.Pending
import StarlarkSyntax.Proofs.Context.Runs
