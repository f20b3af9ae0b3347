import Retouch.Agent
import Retouch.Command.Cleanup
import Retouch.Command.Label
import Retouch.Command.Literal
import Retouch.Command.Segment
import Retouch.Command.Token
import Retouch.Command.Validation
import Retouch.CommandLine.Arguments
import Retouch.CommandLine.Command
import Retouch.CommandLine.Help
import Retouch.CommandLine.Perform
import Retouch.CommandLine.Run
import Retouch.CommandLine.Size
import Retouch.Dispatcher
import Retouch.Effect.Basic
import Retouch.Effect.Family
import Retouch.Effect.Parse
import Retouch.Effect.Render
import Retouch.Engine
import Retouch.Environment
import Retouch.Environment.Dotenv
import Retouch.Environment.Project
import Retouch.EventLog
import Retouch.Failure
import Retouch.Files.Path
import Retouch.Files.Tree
import Retouch.Flag.Rule
import Retouch.Flag.Vocabulary
import Retouch.Invocation
import Retouch.Journal
import Retouch.Json.Basic
import Retouch.Json.Parser
import Retouch.Json.Printer
import Retouch.Main
import Retouch.Number.Basic
import Retouch.Number.Binary64
import Retouch.Number.Decimal
import Retouch.Number.Integer
import Retouch.Number.Numeral
import Retouch.Preset
import Retouch.Progress
import Retouch.Proofs.Agent.Notes
import Retouch.Proofs.Agent.Process
import Retouch.Proofs.Agent.Run
import Retouch.Proofs.Command.Balance
import Retouch.Proofs.Command.CleanTokens
import Retouch.Proofs.Command.Cleaning
import Retouch.Proofs.Command.Cutting
import Retouch.Proofs.Command.FilenameFree
import Retouch.Proofs.Command.Filenames
import Retouch.Proofs.Command.Forms
import Retouch.Proofs.Command.Idempotence
import Retouch.Proofs.Command.Idle
import Retouch.Proofs.Command.Layout
import Retouch.Proofs.Command.NormalForm
import Retouch.Proofs.Command.Padding
import Retouch.Proofs.Command.Quantities
import Retouch.Proofs.Command.Quoting
import Retouch.Proofs.Command.Reading
import Retouch.Proofs.Command.Removal
import Retouch.Proofs.Command.Requoting
import Retouch.Proofs.Command.Segments
import Retouch.Proofs.Command.Spans
import Retouch.Proofs.Command.Stability
import Retouch.Proofs.Command.Standalone
import Retouch.Proofs.Command.Tokenization
import Retouch.Proofs.Command.ToolName
import Retouch.Proofs.Command.Unit
import Retouch.Proofs.CommandLine.Outcome
import Retouch.Proofs.Dispatcher.Interleaving
import Retouch.Proofs.Dispatcher.Safety
import Retouch.Proofs.Dispatcher.Turns
import Retouch.Proofs.Effect.Channels
import Retouch.Proofs.Effect.Collapse
import Retouch.Proofs.Effect.Editing
import Retouch.Proofs.Effect.Exposure
import Retouch.Proofs.Effect.Hidden
import Retouch.Proofs.Effect.Operation
import Retouch.Proofs.Effect.Reload
import Retouch.Proofs.Effect.Rereading
import Retouch.Proofs.Effect.RoundTrip
import Retouch.Proofs.Effect.Scope
import Retouch.Proofs.Effect.Selection
import Retouch.Proofs.Effect.Settled
import Retouch.Proofs.Effect.Standing
import Retouch.Proofs.Effect.Validity
import Retouch.Proofs.Effect.Values
import Retouch.Proofs.Effect.Written
import Retouch.Proofs.Environment.Loading
import Retouch.Proofs.Environment.Seed
import Retouch.Proofs.Environment.Written
import Retouch.Proofs.EventLog.Journal
import Retouch.Proofs.EventLog.RoundTrip
import Retouch.Proofs.Files.Frame
import Retouch.Proofs.Invocation.AllowList
import Retouch.Proofs.Invocation.Arguments
import Retouch.Proofs.Invocation.Buffers
import Retouch.Proofs.Invocation.Entries
import Retouch.Proofs.Invocation.Hollow
import Retouch.Proofs.Invocation.Options
import Retouch.Proofs.Invocation.Padding
import Retouch.Proofs.Invocation.Printed
import Retouch.Proofs.Json.RoundTrip
import Retouch.Proofs.Number.CommandText
import Retouch.Proofs.Number.DecimalValue
import Retouch.Proofs.Number.Rounding
import Retouch.Proofs.Number.Scanning
import Retouch.Proofs.Number.Whole
import Retouch.Proofs.Record
import Retouch.Proofs.Stack.Change
import Retouch.Proofs.Stack.Channels
import Retouch.Proofs.Stack.History
import Retouch.Proofs.Stack.Unwritten
import Retouch.Proofs.Text.Classes
import Retouch.Proofs.Text.Join
import Retouch.Proofs.Text.Lines
import Retouch.Proofs.Text.Split
import Retouch.Proofs.Text.Trim
import Retouch.Proofs.Text.Utf8
import Retouch.Raster.Fit
import Retouch.Raster.PictureFile
import Retouch.Raster.PictureLibrary
import Retouch.Raster.RawImage
import Retouch.Record
import Retouch.Report
import Retouch.Settings
import Retouch.Source.Basic
import Retouch.Source.DryRun
import Retouch.Source.Twister
import Retouch.Stack
import Retouch.Stack.Workspace
import Retouch.Text.Basic
import Retouch.Text.Blank
import Retouch.Text.Case
import Retouch.Text.Digit
import Retouch.Text.Line
import Retouch.Text.Order
import Retouch.Text.Quoted
import Retouch.Text.Range
import Retouch.Text.Utf8
import Retouch.Text.Word
import Retouch.Toml.Basic
import Retouch.Toml.Document
import Retouch.Toml.Scalar
