import RemoteDebug.Engine.Breakpoint
import RemoteDebug.Engine.Error
import RemoteDebug.Engine.Request

/-! What a run of the engine shows: messages sent, calls made to the collaborators of tabs, log
lines, calls that finished, and the end of a connection. -/
namespace RemoteDebug.Engine
open Protocol Wire

/-- What happens to the collaborators of one tab instance. -/
inductive TabEvent where
  | created (id : TabId) (url : String)
  | contextDetached
  | contextReply (payload : Json)
  | breakpoint (spec : BreakpointSpec)
  | scripts
  | navigated (listener : Listener) (url : String)
  | closed (listener : Listener)
  | disconnected (listener : Listener)
  deriving Repr

inductive Level where
  | warning
  | error
  deriving DecidableEq, Repr

/-- Something worth a log line. -/
inductive Notice where
  | versionRefused (code : ResultCode)
  | incompatibleServer (server : Option Version) (client : Version)
  | malformedService (cause : Json.Mismatch)
  | unexpectedService (command : String)
  | unknownTool (name : String)
  | unroutedTool (tool : Tool)
  | badDestination (tool : Tool) (destination : String)
  | rejected (handshake : Handshake) (code : ResultCode) (tab : TabId)
  | malformedReply (cause : Json.Mismatch) (tab : TabId)
  | unexpectedReply (command : String) (tab : TabId)
  deriving Repr

namespace Notice

def level : Notice → Level
  | .versionRefused _ | .unexpectedService _ | .rejected .. | .unexpectedReply .. => .warning
  | _ => .error

def tab? : Notice → Option TabId
  | .rejected _ _ tab | .malformedReply _ tab | .unexpectedReply _ tab => some tab
  | _ => none

def serverText : Option Version → String
  | some v => s!"Some({v.namedText})"
  | none => "None"

def text : Notice → String
  | .versionRefused code => s!"Version request failed: {code.text}"
  | .incompatibleServer server client =>
    s!"Incompatible server version {serverText server}, client speaks {client.text}"
  | .malformedService cause => s!"Malformed DevToolsService response: {cause.message}"
  | .unexpectedService command => s!"Unexpected DevToolsService response: {command}"
  | .unknownTool name => s!"Bad 'Tool' header: {Tool.refusal name}"
  | .unroutedTool tool => s!"Unregistered handler for tool: {tool.name}"
  | .badDestination tool destination =>
    s!"Bad 'Destination' header for {tool.name}: {Text.quote destination}"
  | .rejected .attach code _ => s!"Attach rejected: {code.text}"
  | .rejected .detach code _ => s!"Detach rejected: {code.text}"
  | .malformedReply cause _ => s!"Malformed V8Debugger message: {cause.message}"
  | .unexpectedReply command _ => s!"Unexpected '{command}' reply"

end Notice

/-- A log line: its level, its text and the tab that it is about. -/
def logLine (level : Level) (text : String) (tab : Option TabId) : String :=
  let word := match level with
    | .warning => "WARN "
    | .error => "ERROR "
  word ++ text ++ ((tab.map fun t => " tab=" ++ Message.tabText t).getD "")

def Notice.line (n : Notice) : String := logLine n.level n.text n.tab?

/-- One tab of a finished listing. -/
structure Listed where
  id : TabId
  url : String
  attached : Bool
  tab : Instance
  deriving DecidableEq, Repr, Inhabited

/-- What a call comes to, by the kind of call. -/
inductive Result where
  | done (r : Except EngineError Unit)
  | tabs (r : Except EngineError (List Listed))
  | handshake (r : Except AttachError Unit)
  | version (r : Except TransportError (Option Version))
  | entries (r : Except EngineError (List TabEntry))

instance : Inhabited Result := ⟨.done (.ok ())⟩

inductive Entry where
  /-- A message went out: the request of a call, or a command that nobody waits for. -/
  | sent (asker : Option CallId) (m : Message)
  | event (tab : Instance) (what : TabEvent)
  | notice (n : Notice)
  | finished (call : CallId) (request : Request) (result : Result)
  /-- The session heard that its connection closed. -/
  | connectionClosed

end RemoteDebug.Engine
