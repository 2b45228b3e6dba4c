import BranchTally.Signed
import BranchTally.Json.Reader
import BranchTally.Comparison
import BranchTally.Report.Document
import BranchTally.Function.Level
import BranchTally.Linter.Record
import BranchTally.Main
import BranchTally.Service
import BranchTally.Proofs.Scan
import BranchTally.Proofs.Token
import BranchTally.Proofs.Header
import BranchTally.Proofs.Operators
import BranchTally.Proofs.OperatorCount
import BranchTally.Proofs.Layout
import BranchTally.Proofs.Literal
import BranchTally.Proofs.Condition.Syntax
import BranchTally.Proofs.PlainLine
import BranchTally.Proofs.Condition.Headers
import BranchTally.Proofs.Condition.Points
import BranchTally.Proofs.Condition.Layout
import BranchTally.Proofs.Ternary.Colon
import BranchTally.Proofs.Ternary.Cells
import BranchTally.Proofs.Ternary.Layout
import BranchTally.Proofs.Ownership.Innermost
import BranchTally.Proofs.Ownership.ControlStructure
import BranchTally.Proofs.TernaryCondition
import BranchTally.Proofs.ControlLine
import BranchTally.Proofs.Signature.Defaults
import BranchTally.Proofs.DefaultCount
import BranchTally.Proofs.Signature.Shape
import BranchTally.Proofs.Signature.Extent
import BranchTally.Proofs.Signature.Points
import BranchTally.Proofs.Signature.Layout
import BranchTally.Proofs.Reading.Scan
import BranchTally.Proofs.Redaction.Guard
import BranchTally.Proofs.Redaction.Line
import BranchTally.Proofs.Redaction.Mask
import BranchTally.Proofs.Redaction.Header
import BranchTally.Proofs.Redaction.Parens
import BranchTally.Proofs.Redaction.Ternary
import BranchTally.Proofs.Redaction.Comment
import BranchTally.Proofs.Redaction.Blank
import BranchTally.Proofs.Redaction.Inert
import BranchTally.Proofs.Redaction.Tests
import BranchTally.Proofs.Redaction.Quotation
import BranchTally.Proofs.Redaction.Default
import BranchTally.Proofs.Redaction.Requoted
import BranchTally.Proofs.Redaction.Shape
import BranchTally.Proofs.Redaction.Strip
import BranchTally.Proofs.Redaction.String
import BranchTally.Proofs.Ownership.Holding
import BranchTally.Proofs.Conservation
import BranchTally.Proofs.Influence.Window
import BranchTally.Proofs.Influence.Owners
import BranchTally.Proofs.Influence.Line
import BranchTally.Proofs.Assignment
import BranchTally.Proofs.Relabeling.Owners
import BranchTally.Proofs.Relabeling.Padding
import BranchTally.Proofs.Relabeling.Points
import BranchTally.Proofs.Relabeling.Maps
import BranchTally.Proofs.Ownership.Order
import BranchTally.Proofs.Document
import BranchTally.Proofs.LineEnding.Readers
import BranchTally.Proofs.LineEnding.Patterns
import BranchTally.Proofs.LineEnding.Names
import BranchTally.Proofs.LineEnding.Extent
import BranchTally.Proofs.LineEnding.Pipeline
import BranchTally.Proofs.Extent.ReportedLine
import BranchTally.Proofs.Report
import BranchTally.Proofs.Linter.Record
import BranchTally.Proofs.Analysis
import BranchTally.Proofs.Linter.Message
import BranchTally.Proofs.Registry
import BranchTally.Proofs.Linter.Highest
import BranchTally.Proofs.Ownership.Callback
import BranchTally.Proofs.CommentSpans
import BranchTally.Proofs.Token.Quoted
import BranchTally.Proofs.Token.Runs
import BranchTally.Proofs.HeaderLines
import BranchTally.Proofs.Keyword
import BranchTally.Proofs.DoLoop
import BranchTally.Proofs.Stripping
import BranchTally.Proofs.Ternary.Shift
import BranchTally.Proofs.Duplicates
import BranchTally.Proofs.Extent.Matching
import BranchTally.Proofs.Literal.States
import BranchTally.Proofs.Lookback
import BranchTally.Proofs.MatchingParen
import BranchTally.Proofs.Ownership.Index
import BranchTally.Proofs.ParameterList
