import MesonCheck.Analysis.Arguments
import MesonCheck.Analysis.Call
import MesonCheck.Analysis.Guess
import MesonCheck.Analysis.Issue
import MesonCheck.Analysis.Lint
import MesonCheck.Analysis.Outcome
import MesonCheck.Analysis.Run
import MesonCheck.Analysis.Scope
import MesonCheck.Analysis.Setting
import MesonCheck.Analysis.Statement
import MesonCheck.Analysis.Walk
import MesonCheck.Catalogue.Basic
import MesonCheck.Catalogue.Builtin
import MesonCheck.Catalogue.Builtin.Functions
import MesonCheck.Catalogue.Builtin.Methods
import MesonCheck.Catalogue.Builtin.Types
import MesonCheck.Catalogue.Callable
import MesonCheck.Catalogue.Document
import MesonCheck.Cli.Command
import MesonCheck.Cli.Flags
import MesonCheck.Cli.Host
import MesonCheck.Cli.Output
import MesonCheck.Cli.Request
import MesonCheck.Config.Basic
import MesonCheck.Config.Document
import MesonCheck.Config.Text
import MesonCheck.Diagnostic
import MesonCheck.Disk
import MesonCheck.Duration
import MesonCheck.Editor
import MesonCheck.Failure
import MesonCheck.History.Basic
import MesonCheck.History.Database
import MesonCheck.History.Document
import MesonCheck.History.Run
import MesonCheck.Json
import MesonCheck.Lint.Recorded
import MesonCheck.Lint.Report
import MesonCheck.Log
import MesonCheck.Main
import MesonCheck.Metrics
import MesonCheck.Proofs.Annotations
import MesonCheck.Proofs.Arguments
import MesonCheck.Proofs.Augmented
import MesonCheck.Proofs.Catalogue.Grammar
import MesonCheck.Proofs.Catalogue.Normal
import MesonCheck.Proofs.Catalogue.RoundTrip
import MesonCheck.Proofs.Deprecations
import MesonCheck.Proofs.Documents
import MesonCheck.Proofs.FormatCalls
import MesonCheck.Proofs.Framing
import MesonCheck.Proofs.Getters
import MesonCheck.Proofs.Guess
import MesonCheck.Proofs.GuessBounds
import MesonCheck.Proofs.History.Archive
import MesonCheck.Proofs.History.Listing
import MesonCheck.Proofs.History.Pruning
import MesonCheck.Proofs.History.Tables
import MesonCheck.Proofs.IncludeStack
import MesonCheck.Proofs.Lint.Files
import MesonCheck.Proofs.Lint.Order
import MesonCheck.Proofs.Lint.Report
import MesonCheck.Proofs.Lints
import MesonCheck.Proofs.Locations
import MesonCheck.Proofs.Methods
import MesonCheck.Proofs.Operators
import MesonCheck.Proofs.Reading
import MesonCheck.Proofs.ReadOnly
import MesonCheck.Proofs.Rerun
import MesonCheck.Proofs.StackDiscipline
import MesonCheck.Proofs.Subprojects.Accounts
import MesonCheck.Proofs.Subprojects.Countdown
import MesonCheck.Proofs.Subprojects.Cycles
import MesonCheck.Proofs.Subprojects.Determinism
import MesonCheck.Proofs.Subprojects.Interleaving
import MesonCheck.Proofs.Subprojects.Order
import MesonCheck.Proofs.Subprojects.Rearrangement
import MesonCheck.Proofs.Subprojects.Snapshots
import MesonCheck.Proofs.Text.ByteOrder
import MesonCheck.Proofs.Text.Paths
import MesonCheck.Proofs.Text.Placeholders
import MesonCheck.Proofs.Text.Sorted
import MesonCheck.Proofs.Tree.Dump
import MesonCheck.Proofs.Tree.Layout
import MesonCheck.Proofs.Tree.Loading
import MesonCheck.Proofs.Tree.Numbering
import MesonCheck.Proofs.Tree.Outline
import MesonCheck.Proofs.Tree.Parents
import MesonCheck.Proofs.Tree.Ranges
import MesonCheck.Proofs.Types.Canonical
import MesonCheck.Proofs.Types.Flattening
import MesonCheck.Proofs.Types.Levels
import MesonCheck.Proofs.Types.Merge
import MesonCheck.Proofs.Types.Traits
import MesonCheck.Proofs.Unused
import MesonCheck.Proofs.VariableReads
import MesonCheck.Proofs.VersionOrder
import MesonCheck.Proofs.Visibility
import MesonCheck.Proofs.Walk.Branches
import MesonCheck.Proofs.Walk.Comparison
import MesonCheck.Proofs.Walk.Course
import MesonCheck.Proofs.Walk.Deeds
import MesonCheck.Proofs.Walk.Events
import MesonCheck.Proofs.Walk.ExactMerge
import MesonCheck.Proofs.Walk.Findings
import MesonCheck.Proofs.Walk.Grounds
import MesonCheck.Proofs.Walk.Inclusion
import MesonCheck.Proofs.Walk.Inside
import MesonCheck.Proofs.Walk.Moments
import MesonCheck.Proofs.Walk.Nesting
import MesonCheck.Proofs.Walk.Normal
import MesonCheck.Proofs.Walk.Opening
import MesonCheck.Proofs.Walk.Origins
import MesonCheck.Proofs.Walk.Reach
import MesonCheck.Proofs.Walk.Reports
import MesonCheck.Proofs.Walk.Scope
import MesonCheck.Proofs.Walk.Simulation
import MesonCheck.Proofs.Walk.Steps
import MesonCheck.Proofs.Walk.Survey
import MesonCheck.Proofs.Walk.Trace
import MesonCheck.Proofs.Walk.Visit
import MesonCheck.Proofs.Widening
import MesonCheck.Subprojects.Error
import MesonCheck.Subprojects.Graph
import MesonCheck.Subprojects.Resolve
import MesonCheck.Text.Base64
import MesonCheck.Text.Blank
import MesonCheck.Text.Boundaries
import MesonCheck.Text.Digits
import MesonCheck.Text.LetterCase
import MesonCheck.Text.Letters
import MesonCheck.Text.Path
import MesonCheck.Text.Placeholder
import MesonCheck.Text.Printable
import MesonCheck.Text.Quoted
import MesonCheck.Text.Shortest
import MesonCheck.Text.Sorted
import MesonCheck.Text.Split
import MesonCheck.Timestamp
import MesonCheck.Tree.Dump
import MesonCheck.Tree.Layout
import MesonCheck.Tree.Links
import MesonCheck.Tree.Node
import MesonCheck.Tree.Numbered
import MesonCheck.Tree.Operator
import MesonCheck.Tree.Outline
import MesonCheck.Tree.Range
import MesonCheck.Tree.Source
import MesonCheck.Types.Basic
import MesonCheck.Types.Compatible
import MesonCheck.Types.Expr
import MesonCheck.Types.Normal
import MesonCheck.Types.Operation
import MesonCheck.Version
import MesonCheck.Word
import MesonCheck.Workspace.Basic
import MesonCheck.Workspace.Manifest
import MesonCheck.Yaml.Cell
import MesonCheck.Yaml.Fields
import MesonCheck.Yaml.Node
import MesonCheck.Yaml.ScalarText
import MesonCheck.Yaml.Token
import MesonCheck.Yaml.Value
import MesonCheck.Yaml.Written
