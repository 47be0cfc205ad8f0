import SchemaDecl.Main
import SchemaDecl.Logging
import SchemaDecl.Registry.Creation
import SchemaDecl.Report
import SchemaDecl.Source.Loading
import SchemaDecl.Table
import SchemaDecl.Text.Alphanumeric
import SchemaDecl.Text.Lowercase
import SchemaDecl.Text.Layout
import SchemaDecl.Number.Numeral
import SchemaDecl.Json.Reader
import SchemaDecl.Naming.Allocator
import SchemaDecl.Schema.Reader
import SchemaDecl.Schema.Census
import SchemaDecl.Schema.Check
import SchemaDecl.Template.Simple
import SchemaDecl.Declaration.Printer
import SchemaDecl.Declaration.Prelude
import SchemaDecl.Generation.Visit
import SchemaDecl.Generation.Run
import SchemaDecl.Settings.Check
import SchemaDecl.Settings.File
import SchemaDecl.Generation.Request
import SchemaDecl.Proofs.Generation.Equations
import SchemaDecl.Proofs.Generation.Termination
import SchemaDecl.Proofs.Generation.Origins
import SchemaDecl.Proofs.Generation.Pass
import SchemaDecl.Proofs.Declaration.Texts
import SchemaDecl.Proofs.Generation.GlobalFields
import SchemaDecl.Proofs.Generation.Signatures
import SchemaDecl.Proofs.Naming.Fresh
import SchemaDecl.Proofs.Generation.BlockUnions
import SchemaDecl.Proofs.Declaration.Builtins
import SchemaDecl.Proofs.Generation.Declarations
import SchemaDecl.Proofs.Naming.Heads
import SchemaDecl.Proofs.Generation.Parts
import SchemaDecl.Proofs.Generation.UsableNames
import SchemaDecl.Proofs.Generation.Simulation
import SchemaDecl.Proofs.Generation.Styles
import SchemaDecl.Proofs.Generation.WellTyped
import SchemaDecl.Proofs.Generation.Notes
import SchemaDecl.Proofs.Generation.Reached
import SchemaDecl.Proofs.Generation.Accounts
import SchemaDecl.Proofs.Generation.Orders
import SchemaDecl.Proofs.Generation.Members
import SchemaDecl.Proofs.Generation.Reordered
import SchemaDecl.Proofs.Text.Comments
import SchemaDecl.Proofs.Text.Bare
import SchemaDecl.Proofs.Text.OneLine
import SchemaDecl.Proofs.TypeExpr.Comments
import SchemaDecl.Proofs.Declaration.Comments
import SchemaDecl.Proofs.Generation.Legible
import SchemaDecl.Proofs.Generation.Undocumented
import SchemaDecl.Proofs.Schema.Documents
import SchemaDecl.Proofs.Generation.Faultless
import SchemaDecl.Proofs.Generation.Walks
import SchemaDecl.Proofs.Generation.Parallel
import SchemaDecl.Proofs.Generation.Extended
import SchemaDecl.Proofs.Generation.Leads
import SchemaDecl.Proofs.Declaration.Nesting
import SchemaDecl.Proofs.Generation.Actions
import SchemaDecl.Proofs.Generation.Answers
import SchemaDecl.Proofs.Generation.Chunks
import SchemaDecl.Proofs.Generation.References
import SchemaDecl.Proofs.Generation.Reports
import SchemaDecl.Proofs.Generation.Standards
import SchemaDecl.Proofs.TypeExpr.References
import SchemaDecl.Proofs.Declaration.References
import SchemaDecl.Proofs.Generation.RichText
import SchemaDecl.Proofs.Text.Nesting
import SchemaDecl.Proofs.TypeExpr.Nesting
import SchemaDecl.Proofs.Registry.Aliases
import SchemaDecl.Proofs.Settings.Precedence
import SchemaDecl.Proofs.Settings.Saved
import SchemaDecl.Proofs.CommandLine.Delivery
import SchemaDecl.Proofs.Generation.Refusals
import SchemaDecl.Proofs.Generation.Bars
import SchemaDecl.Proofs.Generation.Choices
import SchemaDecl.Proofs.TypeExpr.Literals
import SchemaDecl.Proofs.Schema.RichText
import SchemaDecl.Proofs.Text.Layout
import SchemaDecl.Proofs.Template.Additions
import SchemaDecl.Proofs.Source.Loading
import SchemaDecl.Proofs.Schema.UnknownTargets
import SchemaDecl.Proofs.Naming.Words
import SchemaDecl.Proofs.Naming.Requests
