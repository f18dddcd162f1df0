import RemoteDebug.Protocol.Message
import RemoteDebug.Wire.Error

/-! A connection as the engine sees it: a channel of messages with a script for the other side.

It is not started, connected or closed. Failures can be queued for the next start
and the next send, and a rule can answer a command at once: the reply then waits
among the inbound messages. -/
namespace RemoteDebug.Engine
open Protocol Wire

structure Connection where
  connected : Bool := false
  /-- It was closed at some time. -/
  closedBefore : Bool := false
  /-- It may be started again after it was closed. -/
  restartable : Bool := false
  starts : Nat := 0
  closes : Nat := 0
  /-- How often a listener was set; without one, messages are dropped. -/
  listeners : Nat := 0
  inbound : List Message := []
  startFaults : List TransportError := []
  sendFaults : List TransportError := []
  /-- Contents of replies, by `command:destination` or by `command`; null means no reply. -/
  rules : List (String × Json) := []
  deriving Repr, Inhabited

namespace Connection

/-- Opens the connection, unless a failure is queued or it was closed for good. -/
def start (c : Connection) : Connection × Except TransportError Unit :=
  let c := { c with starts := c.starts + 1 }
  match c.startFaults with
  | fault :: rest => ({ c with startFaults := rest }, .error fault)
  | [] =>
    if c.closedBefore && !c.restartable then (c, .error .alreadyClosed)
    else ({ c with connected := true }, .ok ())

/-- Closes a connection that is open; the messages not yet delivered are lost. -/
def close (c : Connection) : Connection :=
  { c with connected := false, closedBefore := true, closes := c.closes + 1, inbound := [] }

/-- The content with which the rules answer a message. -/
def answer? (c : Connection) (m : Message) : Option Json :=
  match m.command? with
  | none => none
  | some command =>
    let exactly := c.rules.lookup (command ++ ":" ++ m.destination.getD "")
    match exactly <|> c.rules.lookup command with
    | none | some .null => none
    | some content => some content

/-- Queues a message for the other side. -/
def send (c : Connection) (m : Message) : Connection × Except TransportError Unit :=
  match c.sendFaults with
  | fault :: rest => ({ c with sendFaults := rest }, .error fault)
  | [] =>
    if !c.connected then (c, .error (if c.closedBefore then .alreadyClosed else .notConnected))
    else
      match c.answer? m with
      | none => (c, .ok ())
      | some content =>
        ({ c with inbound := c.inbound ++ [.ofHeaders m.tool m.destination content] }, .ok ())

/-- Sets the rule of a key. -/
def setRule (c : Connection) (key : String) (content : Json) : Connection :=
  { c with rules := (key, content) :: c.rules.filter (·.1 != key) }

end Connection

end RemoteDebug.Engine
