import FlakeLint.Analysis.Action
import FlakeLint.Analysis.Assertion
import FlakeLint.Analysis.Names
import FlakeLint.Analysis.Retry
import FlakeLint.Analysis.Returns
import FlakeLint.Analysis.Selector
import FlakeLint.Analysis.TestBlock
import FlakeLint.Analysis.Wait
import FlakeLint.Checker
import FlakeLint.Checker.Selection
import FlakeLint.Codebase
import FlakeLint.CommandLine.Arguments
import FlakeLint.CommandLine.Command
import FlakeLint.CommandLine.Run
import FlakeLint.Discovery
import FlakeLint.Disk
import FlakeLint.Fault
import FlakeLint.Issue
import FlakeLint.Json.Reader
import FlakeLint.Json.Value
import FlakeLint.Json.Writer
import FlakeLint.Location
import FlakeLint.Main
import FlakeLint.Number.Basic
import FlakeLint.Number.Decimal
import FlakeLint.Number.Double
import FlakeLint.Number.Numeral
import FlakeLint.Output
import FlakeLint.Path
import FlakeLint.Problem.AliasWait
import FlakeLint.Problem.BrokenChain
import FlakeLint.Problem.FixedWait
import FlakeLint.Problem.UnverifiedAction
import FlakeLint.Proofs.Disk.Contents
import FlakeLint.Proofs.Disk.Keeping
import FlakeLint.Proofs.Disk.Listing
import FlakeLint.Proofs.Disk.Paths
import FlakeLint.Proofs.Disk.Places
import FlakeLint.Proofs.Disk.Replacement
import FlakeLint.Proofs.Disk.ShownPaths
import FlakeLint.Proofs.Disk.Temporary
import FlakeLint.Proofs.Json.Alike
import FlakeLint.Proofs.Json.Entries
import FlakeLint.Proofs.Json.Limits
import FlakeLint.Proofs.Json.RoundTrip
import FlakeLint.Proofs.Number.Exact
import FlakeLint.Proofs.Number.Mean
import FlakeLint.Proofs.Number.Numeral
import FlakeLint.Proofs.Number.Rounding
import FlakeLint.Proofs.Number.Score
import FlakeLint.Proofs.Number.WholeLiterals
import FlakeLint.Proofs.Passes.AssertionLines
import FlakeLint.Proofs.Passes.Assessment
import FlakeLint.Proofs.Passes.Buckets
import FlakeLint.Proofs.Passes.ChainSubjects
import FlakeLint.Proofs.Passes.Comments
import FlakeLint.Proofs.Passes.DeclaredAliases
import FlakeLint.Proofs.Passes.DisableComment
import FlakeLint.Proofs.Passes.Faults
import FlakeLint.Proofs.Passes.IssueOrder
import FlakeLint.Proofs.Passes.Issues
import FlakeLint.Proofs.Passes.Judgements
import FlakeLint.Proofs.Passes.LibraryChains
import FlakeLint.Proofs.Passes.Locations
import FlakeLint.Proofs.Passes.MissingPositions
import FlakeLint.Proofs.Passes.Order
import FlakeLint.Proofs.Passes.OwnReturns
import FlakeLint.Proofs.Passes.OwnTests
import FlakeLint.Proofs.Passes.Queries
import FlakeLint.Proofs.Passes.Rating
import FlakeLint.Proofs.Passes.Redrawn
import FlakeLint.Proofs.Passes.Relatedness
import FlakeLint.Proofs.Passes.RetryNames
import FlakeLint.Proofs.Passes.RetrySuffixes
import FlakeLint.Proofs.Passes.Selectors
import FlakeLint.Proofs.Passes.SetupCode
import FlakeLint.Proofs.Passes.Translation
import FlakeLint.Proofs.Passes.WaitRuns
import FlakeLint.Proofs.Related
import FlakeLint.Proofs.Scan.Accounting
import FlakeLint.Proofs.Scan.Exclusions
import FlakeLint.Proofs.Scan.Figures
import FlakeLint.Proofs.Scan.FileReports
import FlakeLint.Proofs.Scan.FlatSearch
import FlakeLint.Proofs.Scan.FoundFiles
import FlakeLint.Proofs.Scan.FoundOnce
import FlakeLint.Proofs.Scan.Isolation
import FlakeLint.Proofs.Scan.Outcome
import FlakeLint.Proofs.Scan.Search
import FlakeLint.Proofs.Scan.Subdirectories
import FlakeLint.Proofs.Scan.Totality
import FlakeLint.Proofs.Settings.Atomicity
import FlakeLint.Proofs.Settings.Changes
import FlakeLint.Proofs.Settings.Choices
import FlakeLint.Proofs.Settings.Edits
import FlakeLint.Proofs.Settings.Fallbacks
import FlakeLint.Proofs.Settings.InPlace
import FlakeLint.Proofs.Settings.Limits
import FlakeLint.Proofs.Settings.Loading
import FlakeLint.Proofs.Settings.Memory
import FlakeLint.Proofs.Settings.Overrides
import FlakeLint.Proofs.Settings.Persistence
import FlakeLint.Proofs.Settings.Reload
import FlakeLint.Proofs.Settings.Sessions
import FlakeLint.Proofs.Table
import FlakeLint.Proofs.Text.Lines
import FlakeLint.Proofs.Text.Patterns
import FlakeLint.Proofs.Text.Search
import FlakeLint.Proofs.Text.Utf16
import FlakeLint.Proofs.Text.Utf8
import FlakeLint.Proofs.Text.Words
import FlakeLint.Proofs.Traversal
import FlakeLint.Proofs.Tree.Address
import FlakeLint.Proofs.Tree.Around
import FlakeLint.Proofs.Tree.Columns
import FlakeLint.Proofs.Tree.Nesting
import FlakeLint.Proofs.Tree.Outline
import FlakeLint.Proofs.Tree.Padding
import FlakeLint.Proofs.Tree.Placement
import FlakeLint.Proofs.Tree.Position
import FlakeLint.Proofs.Tree.Redrawn
import FlakeLint.Proofs.Tree.Root
import FlakeLint.Proofs.Tree.SourceOrder
import FlakeLint.Proofs.Tree.StackWalk
import FlakeLint.Proofs.Tree.SyntaxErrors
import FlakeLint.Proofs.Tree.Walk
import FlakeLint.Report.Console
import FlakeLint.Report.Document
import FlakeLint.Report.Grid
import FlakeLint.Report.Terminal
import FlakeLint.Scan
import FlakeLint.Scan.Log
import FlakeLint.Score
import FlakeLint.Scorecard.Canvas
import FlakeLint.Scorecard.File
import FlakeLint.Scorecard.Layout
import FlakeLint.Settings.Basic
import FlakeLint.Settings.Display
import FlakeLint.Settings.Edit
import FlakeLint.Settings.File
import FlakeLint.Settings.Memory
import FlakeLint.Slice
import FlakeLint.Snapshot
import FlakeLint.Syntax.Call
import FlakeLint.Syntax.Exchange
import FlakeLint.Syntax.Function
import FlakeLint.Syntax.Kind
import FlakeLint.Syntax.Node
import FlakeLint.Syntax.Parse
import FlakeLint.Syntax.Source
import FlakeLint.Table
import FlakeLint.TestFile
import FlakeLint.Text.Blank
import FlakeLint.Text.Capitals
import FlakeLint.Text.Digits
import FlakeLint.Text.Printable
import FlakeLint.Text.Quoted
import FlakeLint.Text.Utf16
import FlakeLint.Text.Utf8
import FlakeLint.Text.Words
