import RemoteDebug.Protocol.Debugger

/-! What can be asked of a session: the calls that somebody waits for.

A call has a number, and so has a tab instance; an attach call hands over the
listener that will hear of the tab. A request waits for the reply to one command. -/
namespace RemoteDebug.Engine
open Protocol

abbrev CallId := Nat

/-- A tab instance, by the order of creation. -/
abbrev Instance := Nat

/-- The receiver of a tab's events that an attach call hands over. -/
structure Listener where
  name : String
  /-- A silent one does nothing with what it is told. -/
  silent : Bool := false
  deriving DecidableEq, Repr, Inhabited

inductive Request where
  | connect
  | ping
  | tabs
  | attach (tab : Instance) (listener : Listener)
  | detach (tab : Instance)
  /-- A command of the separate service handler, with its own timeout in nanoseconds. -/
  | service (command : ServiceCommand) (timeout : Nat)
  deriving DecidableEq, Repr, Inhabited

namespace Request

/-- Whether a call keeps the session alive. -/
def holdsSession : Request → Bool
  | .connect | .ping | .tabs => true
  | _ => false

/-- The command whose reply a request waits for. -/
def command : Request → String
  | .connect => ServiceCommand.version.name
  | .ping => ServiceCommand.ping.name
  | .tabs => ServiceCommand.listTabs.name
  | .attach .. => DebuggerCommand.attach.name
  | .detach _ => DebuggerCommand.detach.name
  | .service c _ => c.name

/-- The tab instance that a request is about. -/
def tab? : Request → Option Instance
  | .attach t _ | .detach t => some t
  | _ => none

end Request

end RemoteDebug.Engine
