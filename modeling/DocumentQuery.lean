import DocumentQuery.Alias
import DocumentQuery.Block
import DocumentQuery.Block.Build
import DocumentQuery.Block.Edit
import DocumentQuery.Block.Equality
import DocumentQuery.Block.Join
import DocumentQuery.Block.Validate
import DocumentQuery.Command
import DocumentQuery.Command.Arguments
import DocumentQuery.Config
import DocumentQuery.Config.Environment
import DocumentQuery.Config.EnvironmentFile
import DocumentQuery.Config.Load
import DocumentQuery.Config.Yaml
import DocumentQuery.Decimal.Binary
import DocumentQuery.Decimal.Notation
import DocumentQuery.Decimal.Shortest
import DocumentQuery.Error
import DocumentQuery.Expr
import DocumentQuery.Json.Decode
import DocumentQuery.Json.Equality
import DocumentQuery.Json.Printer
import DocumentQuery.Json.Reader
import DocumentQuery.Json.Token
import DocumentQuery.Json.Tree
import DocumentQuery.Json.Value
import DocumentQuery.Main
import DocumentQuery.Member
import DocumentQuery.Operator
import DocumentQuery.OrderedMap
import DocumentQuery.PlanFile.Read
import DocumentQuery.PlanFile.Write
import DocumentQuery.Projection.Freeze
import DocumentQuery.Proofs.Alias
import DocumentQuery.Proofs.AliasSearch
import DocumentQuery.Proofs.Alike
import DocumentQuery.Proofs.Building
import DocumentQuery.Proofs.Calls
import DocumentQuery.Proofs.Clauses
import DocumentQuery.Proofs.ConstantText
import DocumentQuery.Proofs.Everywhere
import DocumentQuery.Proofs.FirstRefusal
import DocumentQuery.Proofs.Freeze
import DocumentQuery.Proofs.FreezingInside
import DocumentQuery.Proofs.FrozenColumns
import DocumentQuery.Proofs.Holding
import DocumentQuery.Proofs.Indentation
import DocumentQuery.Proofs.Inlining
import DocumentQuery.Proofs.InliningColumns
import DocumentQuery.Proofs.InliningInTurn
import DocumentQuery.Proofs.InliningSameness
import DocumentQuery.Proofs.Invariants
import DocumentQuery.Proofs.JoinOutcome
import DocumentQuery.Proofs.Joins
import DocumentQuery.Proofs.JsonText
import DocumentQuery.Proofs.JsonValues
import DocumentQuery.Proofs.NestedValidity
import DocumentQuery.Proofs.Nesting
import DocumentQuery.Proofs.OrderedMap
import DocumentQuery.Proofs.Outlines
import DocumentQuery.Proofs.PlanForm
import DocumentQuery.Proofs.PlanReading
import DocumentQuery.Proofs.PlanText
import DocumentQuery.Proofs.Preview
import DocumentQuery.Proofs.PrintedAliases
import DocumentQuery.Proofs.QueryText
import DocumentQuery.Proofs.QueryTokens
import DocumentQuery.Proofs.Rebuilding
import DocumentQuery.Proofs.RecordReading
import DocumentQuery.Proofs.Refusals
import DocumentQuery.Proofs.Renewal
import DocumentQuery.Proofs.Replacement
import DocumentQuery.Proofs.Rereading
import DocumentQuery.Proofs.Revalidation
import DocumentQuery.Proofs.Rewriting
import DocumentQuery.Proofs.Routing
import DocumentQuery.Proofs.Rows
import DocumentQuery.Proofs.Runs
import DocumentQuery.Proofs.Scopes
import DocumentQuery.Proofs.ShownNames
import DocumentQuery.Proofs.SingleColumn
import DocumentQuery.Proofs.Slots
import DocumentQuery.Proofs.Soundness
import DocumentQuery.Proofs.Traversal
import DocumentQuery.Proofs.UniqueReading
import DocumentQuery.Proofs.Updates
import DocumentQuery.Proofs.Validity
import DocumentQuery.Proofs.VisitOrder
import DocumentQuery.Render
import DocumentQuery.Revision
import DocumentQuery.Revision.Inline
import DocumentQuery.Revision.Rule
import DocumentQuery.Routing
import DocumentQuery.Source
import DocumentQuery.Text.Blank
import DocumentQuery.Text.Identifier
import DocumentQuery.Text.LetterCase
import DocumentQuery.Text.LetterCase.Ranges
import DocumentQuery.Text.Lines
import DocumentQuery.Walk
import DocumentQuery.Yaml.Anchors
import DocumentQuery.Yaml.BlockScalar
import DocumentQuery.Yaml.Glyph
import DocumentQuery.Yaml.Node
import DocumentQuery.Yaml.Property
import DocumentQuery.Yaml.Scalar
import DocumentQuery.Yaml.Token
