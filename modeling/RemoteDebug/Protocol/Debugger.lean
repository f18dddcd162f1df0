import RemoteDebug.Protocol.Service

/-! Commands for the debugger of a tab, and what comes back: replies and events. -/
namespace RemoteDebug.Protocol

inductive DebuggerCommand where
  | attach
  | detach
  /-- A request that is passed on unread. -/
  | request (payload : Json)
  /-- A script to run; nothing answers it. -/
  | evaluate (script : String)
  deriving Repr, Inhabited

namespace DebuggerCommand

def name : DebuggerCommand → String
  | .attach => "attach"
  | .detach => "detach"
  | .request _ => "debugger_command"
  | .evaluate _ => "evaluate_javascript"

/-- What stands under `data`, if the command has it. -/
def data? : DebuggerCommand → Option Json
  | .attach | .detach => none
  | .request payload => some payload
  | .evaluate script => some (.str script)

def content (c : DebuggerCommand) : Json :=
  .ofFields (("command", .str c.name) :: (c.data?.map ("data", ·)).toList)

def toMessage (c : DebuggerCommand) (tab : TabId) : Message := .forTab .v8Debugger tab c.content

end DebuggerCommand

structure DebuggerReply where
  command : String
  result : Option ResultCode
  data : Json
  deriving Repr, Inhabited

/-- What a reply is, by its command. -/
inductive ReplyKind where
  | attach
  | detach
  | request
  /-- The tab went to another address. -/
  | navigated
  /-- The tab was closed. -/
  | closed
  | other
  deriving DecidableEq, Repr, Inhabited

namespace DebuggerReply

def ofJson (v : Json) : Except Json.Mismatch DebuggerReply := do
  let answer ← Answer.ofJson "V8Reply" true v
  return ⟨answer.command, answer.result, answer.data⟩

def kind (r : DebuggerReply) : ReplyKind :=
  match r.command with
  | "attach" => .attach
  | "detach" => .detach
  | "debugger_command" => .request
  | "navigated" => .navigated
  | "closed" => .closed
  | _ => .other

/-- The result; an absent one counts as success. -/
def code (r : DebuggerReply) : ResultCode := r.result.getD .ok

end DebuggerReply

end RemoteDebug.Protocol
