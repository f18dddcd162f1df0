import RemoteDebug.Engine.Teardown

/-! What inbound messages do.

The tool of a message and the session's routes choose the receiver: the session's
service handler, or the tab that is registered under the destination. A message
that has no receiver changes nothing; if that is more than a tab gone, the log
says so. -/
namespace RemoteDebug.Engine
open Protocol

/-- Who receives a message. -/
inductive Recipient where
  | service (pending : Pending ServiceResponse)
  | tab (tab : Instance)
  /-- Nobody, which the log may have to say. -/
  | nobody (notice : Option Notice)

namespace State

/-- Hands a reply to the oldest call that waits for it, and logs a reply nobody waits for. -/
def serviceReply (p : Pending ServiceResponse) (m : Message) :
    Option Notice × Pending ServiceResponse :=
  match ServiceResponse.ofJson m.content with
  | .error cause => (some (.malformedService cause), p)
  | .ok response =>
    match p.complete response.command response with
    | (true, p) => (none, p)
    | (false, p) => (some (.unexpectedService response.command), p)

def logged (s : State) : Option Notice → State
  | none => s
  | some n => s.log n

/-- A message for the session's service handler. -/
def serviceMessage (s : State) (p : Pending ServiceResponse) (m : Message) : State :=
  let (notice, p) := serviceReply p m
  { s with service := some p }.logged notice

/-- A message for the separate service handler. -/
def separateMessage (s : State) (m : Message) : State :=
  let (notice, p) := serviceReply s.separate m
  { s with separate := p }.logged notice

/-- A reply to an attach or detach exchange of a tab. -/
def handshakeReply (s : State) (t : Instance) (tab : Tab) (reply : DebuggerReply) : State :=
  match tab.pending.complete reply.command reply with
  | (true, p) => s.modifyTab t fun tab => { tab with pending := p }
  | (false, p) =>
    (s.modifyTab t fun tab => { tab with pending := p }).log (.unexpectedReply reply.command tab.id)

/-- A message for a tab instance. -/
def tabMessage (s : State) (t : Instance) (m : Message) : State :=
  match s.tab? t with
  | none => s
  | some tab =>
    match DebuggerReply.ofJson m.content with
    | .error cause => s.log (.malformedReply cause tab.id)
    | .ok reply =>
      match reply.kind with
      | .attach | .detach => s.handshakeReply t tab reply
      | .request => s.record (.event t (.contextReply reply.data))
      | .navigated => s.tell t (.navigated · (reply.data.str?.getD ""))
      | .closed => (s.tell t .closed).detached t
      | .other => s

def recipient (s : State) (m : Message) : Recipient :=
  match m.tool? with
  | none => .nobody (some (.unknownTool m.tool))
  | some tool =>
    match s.config.routes.get tool with
    | none => .nobody (some (.unroutedTool tool))
    | some .service =>
      match s.service with
      | none => .nobody (some (.unroutedTool tool))
      | some p => .service p
    | some .tab =>
      match m.tab? with
      | none => .nobody (some (.badDestination tool (m.destination.getD "")))
      | some id =>
        match s.registered? id with
        | none => .nobody none
        | some t => .tab t

def dispatch (s : State) (m : Message) : State :=
  match s.recipient m with
  | .service p => s.serviceMessage p m
  | .tab t => s.tabMessage t m
  | .nobody notice => s.logged notice

/-- The connection hands a message to its listener. -/
def deliver (s : State) (m : Message) : State := if s.listens then s.dispatch m else s

/-- The connection hands its oldest message to its listener. -/
def receive (s : State) : State :=
  match s.connection.inbound with
  | [] => s
  | m :: rest => { s with connection := { s.connection with inbound := rest } }.deliver m

end State

end RemoteDebug.Engine
