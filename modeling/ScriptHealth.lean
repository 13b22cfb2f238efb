import ScriptHealth.Analysis.File
import ScriptHealth.Analysis.Pool
import ScriptHealth.Analysis.Sources
import ScriptHealth.Analysis.Stats
import ScriptHealth.Command.Options
import ScriptHealth.Command.Request
import ScriptHealth.Command.Run
import ScriptHealth.Config.Basic
import ScriptHealth.Config.Environment
import ScriptHealth.Config.Files
import ScriptHealth.Config.Layers
import ScriptHealth.Data.OrderedMap
import ScriptHealth.Fault
import ScriptHealth.Graph.Basic
import ScriptHealth.Graph.Resolve
import ScriptHealth.Hotspot
import ScriptHealth.Json.Reader
import ScriptHealth.Json.Writer
import ScriptHealth.Log
import ScriptHealth.Logged
import ScriptHealth.Main
import ScriptHealth.Number.Binary64
import ScriptHealth.Number.Fixed
import ScriptHealth.Number.Numeral
import ScriptHealth.Number.Quantity
import ScriptHealth.Number.Rounding
import ScriptHealth.Number.Shortest
import ScriptHealth.Package.Manifest
import ScriptHealth.Package.Usage
import ScriptHealth.Performance
import ScriptHealth.Project.Analysis
import ScriptHealth.Project.Files
import ScriptHealth.Project.Manifest
import ScriptHealth.Project.Output
import ScriptHealth.Project.Tool
import ScriptHealth.Report.Basic
import ScriptHealth.Report.Stored
import ScriptHealth.Report.Style
import ScriptHealth.Report.Summary
import ScriptHealth.Score.Basic
import ScriptHealth.Score.Weights
import ScriptHealth.Script.Grammar.Binding
import ScriptHealth.Script.Grammar.Expression
import ScriptHealth.Script.Grammar.Markup
import ScriptHealth.Script.Grammar.Members
import ScriptHealth.Script.Grammar.Rules
import ScriptHealth.Script.Grammar.Statement
import ScriptHealth.Script.Grammar.Types
import ScriptHealth.Script.Import
import ScriptHealth.Script.Node
import ScriptHealth.Script.Parser
import ScriptHealth.Script.Piece
import ScriptHealth.Script.Token
import ScriptHealth.Script.Walk
import ScriptHealth.Security.Audit
import ScriptHealth.Security.Finding
import ScriptHealth.Security.Secret
import ScriptHealth.Security.Shape
import ScriptHealth.Settings
import ScriptHealth.Source.File
import ScriptHealth.Source.Language
import ScriptHealth.Source.LineCount
import ScriptHealth.Source.Path
import ScriptHealth.Text.Blank
import ScriptHealth.Text.CharacterRange
import ScriptHealth.Text.Digit
import ScriptHealth.Text.Lines
import ScriptHealth.Text.Lowercase
import ScriptHealth.Text.Markup
import ScriptHealth.Text.Printable
import ScriptHealth.Text.Quoted
import ScriptHealth.Text.Utf8
import ScriptHealth.Timestamp
import ScriptHealth.Toml.Reader
import ScriptHealth.Toml.Scalar
import ScriptHealth.Toml.Scan
import ScriptHealth.Toml.Table
import ScriptHealth.Value.Basic
import ScriptHealth.Value.Moment
import ScriptHealth.Workspace.Access
import ScriptHealth.Workspace.Change
import ScriptHealth.Workspace.Entry
import ScriptHealth.Workspace.Walk
import ScriptHealth.Proofs.Analysis.Schedule
import ScriptHealth.Proofs.Analysis.Totals
import ScriptHealth.Proofs.Graph.Closure
import ScriptHealth.Proofs.Data.OrderedMap
import ScriptHealth.Proofs.Data.Tally
import ScriptHealth.Proofs.Json.Escape
import ScriptHealth.Proofs.Json.RoundTrip
import ScriptHealth.Proofs.Data.Outcome
import ScriptHealth.Proofs.Report.RoundTrip
import ScriptHealth.Proofs.Number.Quantity
import ScriptHealth.Proofs.Score.Weights
import ScriptHealth.Proofs.Score.Whole
import ScriptHealth.Proofs.Score.Monotone
import ScriptHealth.Proofs.Text.Segments
import ScriptHealth.Proofs.Package.Usage
import ScriptHealth.Proofs.Script.Comment
import ScriptHealth.Proofs.Data.Sort
import ScriptHealth.Proofs.Report.Security
import ScriptHealth.Proofs.Report.Order
import ScriptHealth.Proofs.Workspace.Listing
import ScriptHealth.Proofs.Toml.Table
import ScriptHealth.Proofs.Config.Precedence
import ScriptHealth.Proofs.Workspace.Way
import ScriptHealth.Proofs.Config.Escape
import ScriptHealth.Proofs.Workspace.Growth
import ScriptHealth.Proofs.Project.Listing
import ScriptHealth.Proofs.Project.Reanalysis
import ScriptHealth.Proofs.Text.LineEnd
import ScriptHealth.Proofs.Project.LineEnds
import ScriptHealth.Proofs.Workspace.Leading
import ScriptHealth.Proofs.Text.Markup
import ScriptHealth.Proofs.Command.Switch
import ScriptHealth.Proofs.Number.Range
import ScriptHealth.Proofs.Score.Range
import ScriptHealth.Proofs.Json.Refusal
import ScriptHealth.Proofs.Workspace.RealPath
import ScriptHealth.Proofs.Project.Collaborators
import ScriptHealth.Proofs.Project.Degradation
import ScriptHealth.Proofs.Source.NormalForm
import ScriptHealth.Proofs.Graph.Chain
import ScriptHealth.Proofs.Graph.Reach
import ScriptHealth.Proofs.Workspace.Destination
import ScriptHealth.Proofs.Project.Frame
import ScriptHealth.Proofs.Graph.Respelling
import ScriptHealth.Proofs.Script.Places
import ScriptHealth.Proofs.Security.Secret
import ScriptHealth.Proofs.Security.Shape
import ScriptHealth.Proofs.Text.Trim
import ScriptHealth.Proofs.Source.LineCount
import ScriptHealth.Proofs.Security.SecretLines
import ScriptHealth.Proofs.Project.Hotspots
import ScriptHealth.Proofs.Security.Audit
import ScriptHealth.Proofs.Workspace.Parent
import ScriptHealth.Proofs.Command.Repair
import ScriptHealth.Proofs.Text.Encoding
import ScriptHealth.Proofs.Text.Paragraphs
import ScriptHealth.Proofs.Project.Ignoring
import ScriptHealth.Proofs.Workspace.Agreement
import ScriptHealth.Proofs.Project.Packages
import ScriptHealth.Proofs.Graph.NormalForm
import ScriptHealth.Proofs.Text.Padded
import ScriptHealth.Proofs.Timestamp.Calendar
import ScriptHealth.Proofs.Timestamp.Order
import ScriptHealth.Proofs.Source.Suffix
import ScriptHealth.Proofs.Project.Extensions
import ScriptHealth.Proofs.Config.Acceptance
import ScriptHealth.Proofs.Number.Fixed
import ScriptHealth.Proofs.Performance.Size
