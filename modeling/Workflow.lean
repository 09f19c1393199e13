import Workflow.CommandLine.Arguments
import Workflow.CommandLine.Basic
import Workflow.CommandLine.Help
import Workflow.Config.Basic
import Workflow.Config.File
import Workflow.Document
import Workflow.Editor.Argument
import Workflow.Editor.Basic
import Workflow.Editor.Edit
import Workflow.Editor.Fingerprint
import Workflow.Editor.History
import Workflow.Editor.Operation
import Workflow.Editor.Storage
import Workflow.Graph.Basic
import Workflow.Graph.Cycle
import Workflow.Graph.Dump
import Workflow.Graph.Problem
import Workflow.Graph.Reach
import Workflow.Graph.Reading
import Workflow.Json.Reader
import Workflow.Json.Writer
import Workflow.Main
import Workflow.Number.Double
import Workflow.Number.Layout
import Workflow.Number.Literal
import Workflow.Number.Shortest
import Workflow.Proofs.Editor.Building
import Workflow.Proofs.Editor.Burst
import Workflow.Proofs.Editor.Comparing
import Workflow.Proofs.Editor.Delivery
import Workflow.Proofs.Editor.Execution
import Workflow.Proofs.Editor.Holding
import Workflow.Proofs.Editor.Id
import Workflow.Proofs.Editor.Lasting
import Workflow.Proofs.Editor.Punctual
import Workflow.Proofs.Editor.Reaction
import Workflow.Proofs.Editor.Recording
import Workflow.Proofs.Editor.Schedule
import Workflow.Proofs.Editor.Session
import Workflow.Proofs.Editor.Timeline
import Workflow.Proofs.Editor.Upkeep
import Workflow.Proofs.Editor.Waiting
import Workflow.Proofs.Graph.Cycle
import Workflow.Proofs.Graph.Explore
import Workflow.Proofs.Graph.Reach
import Workflow.Proofs.Graph.Rules
import Workflow.Proofs.Graph.Tree
import Workflow.Proofs.Graph.Validity
import Workflow.Proofs.Number.Rounding
import Workflow.Proofs.Number.Sign
import Workflow.Proofs.Run.Completion
import Workflow.Proofs.Run.Flow
import Workflow.Proofs.Run.Recursion
import Workflow.Proofs.Run.Tree
import Workflow.Proofs.Run.Walk
import Workflow.Proofs.View.Growth
import Workflow.Proofs.View.Preview
import Workflow.Reading.Basic
import Workflow.Reading.Issue
import Workflow.Reading.Scalar
import Workflow.Run.Basic
import Workflow.Run.Error
import Workflow.Storage.Files
import Workflow.Text.Blank
import Workflow.Text.Case
import Workflow.Text.CaseTable
import Workflow.Text.CodePoints
import Workflow.Text.Digit
import Workflow.Text.Hex
import Workflow.Text.Markup
import Workflow.Text.Printable
import Workflow.Text.Quoted
import Workflow.Text.Surrogate
import Workflow.Text.Utf8
import Workflow.Timer.Basic
import Workflow.Timer.Clock
import Workflow.Timer.Run
import Workflow.Transform.Number
import Workflow.Transform.Operation
import Workflow.Value
import Workflow.Value.Plain
import Workflow.View.PlainText
import Workflow.View.TraceTable
import Workflow.View.Tree
import Workflow.Yaml.Basic
import Workflow.Yaml.Moment
import Workflow.Yaml.Node
import Workflow.Yaml.Plain
import Workflow.Yaml.Reader
import Workflow.Yaml.Scalar
import Workflow.Yaml.Source
import Workflow.Yaml.Token
import Workflow.Proofs.Editor.Action
import Workflow.Proofs.Editor.Retention
import Workflow.Proofs.Editor.Failing
import Workflow.Proofs.Graph.Payload
import Workflow.Proofs.Json.Distinct
import Workflow.Proofs.Editor.Merging
import Workflow.Proofs.Run.Causes
import Workflow.Proofs.Storage.Writing
import Workflow.Proofs.Editor.Autosaving
import Workflow.Proofs.Number.Nearest
import Workflow.Proofs.Number.Decimal
import Workflow.Proofs.Number.Shortest
import Workflow.Proofs.Json.Number
import Workflow.Proofs.Text.Surrogate
import Workflow.Proofs.Text.Utf8
import Workflow.Proofs.Json.Text
import Workflow.Proofs.Json.Value
import Workflow.Proofs.Json.File
import Workflow.Proofs.Graph.Saved
import Workflow.Proofs.Editor.Loading
import Workflow.Proofs.Yaml.Plain
import Workflow.Proofs.Yaml.Quoted
import Workflow.Proofs.Yaml.Scan
import Workflow.Proofs.Yaml.Source
import Workflow.Proofs.Yaml.Word
import Workflow.Proofs.Yaml.Flow
import Workflow.Proofs.Yaml.File
import Workflow.Proofs.Yaml.Saved
import Workflow.Proofs.Editor.Exporting
import Workflow.Proofs.Editor.Joining
import Workflow.Proofs.Graph.Circle
import Workflow.Proofs.Run.Recurrence
import Workflow.Proofs.Timer.Unruly
import Workflow.Proofs.Editor.Window
import Workflow.Proofs.Number.Grid
import Workflow.Proofs.Number.Sum
import Workflow.Proofs.Json.Escaped
import Workflow.Proofs.Graph.Regular
import Workflow.Proofs.Json.Unique
import Workflow.Proofs.Editor.Dropping
import Workflow.Proofs.Run.Alike
import Workflow.Proofs.CommandLine.Saved
import Workflow.Proofs.Reading.Reasons
import Workflow.Proofs.CommandLine.Outcome
import Workflow.Proofs.Json.Found
import Workflow.Proofs.Json.Dumping
import Workflow.Proofs.Editor.Stored
import Workflow.Proofs.Graph.Enumeration
import Workflow.Proofs.Run.Loop
import Workflow.Proofs.Run.Provenance
import Workflow.Proofs.View.Places
import Workflow.Proofs.Editor.Refusal
import Workflow.Proofs.Editor.Signals
import Workflow.Proofs.Number.Range
import Workflow.Proofs.Json.Spelled
import Workflow.Proofs.Run.Emission
import Workflow.Proofs.Number.Closest
import Workflow.Proofs.Number.Whole
import Workflow.Proofs.Transform.Leading
import Workflow.Proofs.Transform.Multiplier
import Workflow.Proofs.Transform.Record
import Workflow.Proofs.Json.Document
