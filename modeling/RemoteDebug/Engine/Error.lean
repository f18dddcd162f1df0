import RemoteDebug.Json.Shape
import RemoteDebug.Protocol.ResultCode
import RemoteDebug.Protocol.Version
import RemoteDebug.Wire.Error

/-! Why a call of the engine fails. -/
namespace RemoteDebug.Engine
open Protocol Wire

/-- A call that comes out of order. -/
inductive Misuse where
  | notConnected
  | tabNotAttached
  deriving DecidableEq, Repr

def Misuse.message : Misuse → String
  | .notConnected => "not connected"
  | .tabNotAttached => "tab is not attached"

inductive EngineError where
  | connection (cause : TransportError)
  /-- The server's version, if it told one, does not go with the client's. -/
  | versionIncompatible (client : Version) (server : Option Version)
  | illegalState (misuse : Misuse)
  /-- A command was answered with a code other than OK. -/
  | refused (command : String) (code : ResultCode)
  /-- An answer has not the expected shape. -/
  | malformed (cause : Json.Mismatch)
  deriving Repr

namespace EngineError

def message : EngineError → String
  | .connection cause => s!"Connection error: {cause.message}"
  | .versionIncompatible client server =>
    let shown := (server.map Version.text).getD "unknown"
    s!"Unsupported protocol version: client {client.text}, server {shown}"
  | .illegalState misuse => s!"Illegal state: {misuse.message}"
  | .refused command code => s!"'{command}' failed: {code.text}"
  | .malformed cause => s!"Malformed response: {cause.message}"

def isTimeout : EngineError → Bool
  | .connection cause => cause.isTimeout
  | _ => false

/-- The message, then the message of each deeper cause. -/
def causes (e : EngineError) : List String :=
  e.message :: match e with
    | .connection cause => cause.causes
    | .malformed cause => [cause.message]
    | _ => []

end EngineError

/-- The two exchanges that a tab's debugger answers. -/
inductive Handshake where
  | attach
  | detach
  deriving DecidableEq, Repr

def Handshake.name : Handshake → String
  | .attach => "attach"
  | .detach => "detach"

inductive AttachError where
  | alreadyAttached
  | notAttached
  | rejected (handshake : Handshake) (code : ResultCode)
  | transport (cause : TransportError)
  deriving DecidableEq, Repr

namespace AttachError

def message : AttachError → String
  | .alreadyAttached => "Tab is already attached"
  | .notAttached => "Tab is not attached"
  | .rejected handshake code => s!"Debuggee rejected '{handshake.name}': {code.text}"
  | .transport cause => cause.message

def isTimeout : AttachError → Bool
  | .transport cause => cause.isTimeout
  | _ => false

/-- The message, then the message of each deeper cause. -/
def causes : AttachError → List String
  | .transport cause => cause.causes
  | e => [e.message]

end AttachError

end RemoteDebug.Engine
