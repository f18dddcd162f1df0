import RemoteDebug.Cli.Arguments
import RemoteDebug.Cli.Client
import RemoteDebug.Cli.Console
import RemoteDebug.Cli.Usage
import RemoteDebug.Engine.Action
import RemoteDebug.Engine.Association
import RemoteDebug.Engine.Breakpoint
import RemoteDebug.Engine.Call
import RemoteDebug.Engine.Config
import RemoteDebug.Engine.Connection
import RemoteDebug.Engine.Discovery
import RemoteDebug.Engine.Dispatch
import RemoteDebug.Engine.Error
import RemoteDebug.Engine.Journal
import RemoteDebug.Engine.Pending
import RemoteDebug.Engine.Request
import RemoteDebug.Engine.State
import RemoteDebug.Engine.Teardown
import RemoteDebug.Json.Double
import RemoteDebug.Json.Printer
import RemoteDebug.Json.Reader
import RemoteDebug.Json.Shape
import RemoteDebug.Json.Shortest
import RemoteDebug.Json.Value
import RemoteDebug.Main
import RemoteDebug.Proofs.Addressing
import RemoteDebug.Proofs.Aftermath
import RemoteDebug.Proofs.Agreement
import RemoteDebug.Proofs.Alignment
import RemoteDebug.Proofs.Alone
import RemoteDebug.Proofs.Anchor
import RemoteDebug.Proofs.Announcement
import RemoteDebug.Proofs.Attachment
import RemoteDebug.Proofs.Beside
import RemoteDebug.Proofs.Brevity
import RemoteDebug.Proofs.Cascade
import RemoteDebug.Proofs.Change
import RemoteDebug.Proofs.Closing
import RemoteDebug.Proofs.Conduct
import RemoteDebug.Proofs.Correlation
import RemoteDebug.Proofs.Course
import RemoteDebug.Proofs.Delivery
import RemoteDebug.Proofs.Discipline
import RemoteDebug.Proofs.Discovery
import RemoteDebug.Proofs.Encoding
import RemoteDebug.Proofs.Exchange
import RemoteDebug.Proofs.Failure
import RemoteDebug.Proofs.Framing
import RemoteDebug.Proofs.Growth
import RemoteDebug.Proofs.Heading
import RemoteDebug.Proofs.Hearing
import RemoteDebug.Proofs.Identity
import RemoteDebug.Proofs.Idleness
import RemoteDebug.Proofs.Incident
import RemoteDebug.Proofs.Life
import RemoteDebug.Proofs.Lines
import RemoteDebug.Proofs.Link
import RemoteDebug.Proofs.Listening
import RemoteDebug.Proofs.Lookup
import RemoteDebug.Proofs.Matching
import RemoteDebug.Proofs.Negotiation
import RemoteDebug.Proofs.Nesting
import RemoteDebug.Proofs.Occasion
import RemoteDebug.Proofs.Pairing
import RemoteDebug.Proofs.Parts
import RemoteDebug.Proofs.Progress
import RemoteDebug.Proofs.Pursuit
import RemoteDebug.Proofs.Reader
import RemoteDebug.Proofs.Recording
import RemoteDebug.Proofs.Release
import RemoteDebug.Proofs.Roundtrip
import RemoteDebug.Proofs.Routing
import RemoteDebug.Proofs.Schedule
import RemoteDebug.Proofs.Sending
import RemoteDebug.Proofs.Server
import RemoteDebug.Proofs.Settling
import RemoteDebug.Proofs.Shutdown
import RemoteDebug.Proofs.Snapshot
import RemoteDebug.Proofs.Stages
import RemoteDebug.Proofs.Starts
import RemoteDebug.Proofs.Startup
import RemoteDebug.Proofs.Stream
import RemoteDebug.Proofs.Survival
import RemoteDebug.Proofs.Table
import RemoteDebug.Proofs.Termination
import RemoteDebug.Proofs.Tidiness
import RemoteDebug.Proofs.Transcript
import RemoteDebug.Proofs.Turns
import RemoteDebug.Proofs.Versions
import RemoteDebug.Proofs.View
import RemoteDebug.Proofs.Waiting
import RemoteDebug.Proofs.Work
import RemoteDebug.Protocol.Debugger
import RemoteDebug.Protocol.Message
import RemoteDebug.Protocol.ResultCode
import RemoteDebug.Protocol.Service
import RemoteDebug.Protocol.Tool
import RemoteDebug.Protocol.Version
import RemoteDebug.Report.Failure
import RemoteDebug.Report.History
import RemoteDebug.Scenario.Peer
import RemoteDebug.Scenario.Server
import RemoteDebug.Scenario.Step
import RemoteDebug.Socket.State
import RemoteDebug.Text.Blank
import RemoteDebug.Text.Numeral
import RemoteDebug.Text.Quoted
import RemoteDebug.Text.Span
import RemoteDebug.Text.Utf8
import RemoteDebug.Text.Visible
import RemoteDebug.Wire.Error
import RemoteDebug.Wire.Frame
