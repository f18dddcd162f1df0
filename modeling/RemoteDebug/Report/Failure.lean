import RemoteDebug.Engine.Error
import RemoteDebug.Protocol.Service

/-! Failures as JSON objects: the kind under `error`, the text under `message`, and whether it
was a timeout. -/
namespace RemoteDebug.Report
open Engine Protocol Wire

/-- A failure of some kind with its text, and more fields. -/
def failure (kind message : String) (more : List (String × Json) := []) : Json :=
  .ofFields (("error", .str kind) :: ("message", .str message) :: more)

def transportKind : TransportError → String
  | .connectFailed .. => "ConnectFailed"
  | .handshake _ => "Handshake"
  | .framing _ => "Framing"
  | .notConnected => "NotConnected"
  | .alreadyClosed => "AlreadyClosed"
  | .channelClosed => "ChannelClosed"
  | .timeout _ => "Timeout"
  | .stream _ => "Io"

def engineKind : EngineError → String
  | .connection _ => "Connection"
  | .versionIncompatible .. => "VersionIncompatible"
  | .illegalState _ => "IllegalState"
  | .refused .. => "Protocol"
  | .malformed _ => "Json"

def attachKind : AttachError → String
  | .alreadyAttached => "AlreadyAttached"
  | .notAttached => "NotAttached"
  | .rejected .. => "Rejected"
  | .transport _ => "Transport"

def transportFailure (e : TransportError) : Json :=
  failure (transportKind e) e.message [("timeout", .bool e.isTimeout)]

/-- A failure that may wrap one of the transport. -/
def wrapping (kind message : String) (timeout : Bool) (inner : Option TransportError) : Json :=
  failure kind message
    [("timeout", .bool timeout), ("inner", .ofOption (fun e => .str (transportKind e)) inner)]

def engineFailure (e : EngineError) : Json :=
  let inner := match e with
    | .connection cause => some cause
    | _ => none
  wrapping (engineKind e) e.message e.isTimeout inner

def attachFailure (e : AttachError) : Json :=
  let inner := match e with
    | .transport cause => some cause
    | _ => none
  wrapping (attachKind e) e.message e.isTimeout inner

/-- A value that has not the expected shape. -/
def mismatch (m : Json.Mismatch) : Json := failure "Json" m.message

/-- A result, or the report of its failure. -/
def outcome {ε α : Type} (onError : ε → Json) (onOk : α → Json) : Except ε α → Json
  | .ok value => onOk value
  | .error e => onError e

def done : Json := .str "ok"

def message (m : Message) : Json :=
  .ofFields
    [("tool", .str m.tool), ("destination", .ofOption .str m.destination), ("content", m.content)]

def tabEntries (entries : List TabEntry) : Json :=
  .arr (entries.map fun e => .arr [.int (.ofUInt32 e.id), .str e.url])

def version (v : Option Version) : Json := .ofOption Version.toJson v

end RemoteDebug.Report
