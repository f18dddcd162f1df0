import RemoteDebug.Engine.Discovery
import RemoteDebug.Engine.Dispatch

/-! The course of a call, from its start to its result.

A call that needs something for itself (the connection, or a tab) waits in a queue
until it is the first there. Then it does what can be done at once, sends its
request, and waits for the reply. A reply wins over the end of the waiting time.
`resume` takes a call as far as it can go. -/
namespace RemoteDebug.Engine
open Protocol Wire

namespace State

/-- How long a request waits for its reply, in nanoseconds. -/
def allowance (s : State) : Request → Nat
  | .service _ timeout => timeout
  | _ => s.config.timeout

/-! ### Locks -/

/-- The calls that hold or wait for what a request needs alone, the holder first. -/
def lockOf (s : State) : Request → Option (List CallId)
  | .connect => some s.connectLock
  | .attach t _ | .detach t => (s.tab? t).map (·.lock)
  | _ => none

def changeLock (s : State) (r : Request) (f : List CallId → List CallId) : State :=
  match r with
  | .connect => { s with connectLock := f s.connectLock }
  | .attach t _ | .detach t => s.modifyTab t fun tab => { tab with lock := f tab.lock }
  | _ => s

/-- Nothing keeps the call from going on but what it waits for itself. -/
def holds (s : State) (c : Call) : Bool :=
  match s.lockOf c.request with
  | some lock => lock.head? == some c.id
  | none => true

/-- Takes a call off the list of calls and out of its queue. -/
def retire (s : State) (c : Call) : State :=
  { s with calls := s.calls.filter (·.id != c.id) }.changeLock c.request (·.filter (· != c.id))

/-- Notes how a call came out. -/
def report (s : State) (c : Call) (r : Result) : State := s.record (.finished c.id c.request r)

/-- The end of a call that waits for nothing. -/
def finish (s : State) (c : Call) (r : Result) : State := (s.retire c).report c r

/-! ### Waiting -/

/-- The table in which a request for a service waits. -/
def serviceTable (s : State) : Request → Pending ServiceResponse
  | .service .. => s.separate
  | _ => s.service.getD {}

def setServiceTable (s : State) (r : Request) (p : Pending ServiceResponse) : State :=
  match r with
  | .service .. => { s with separate := p }
  | _ => { s with service := some p }

def tabTable (s : State) (t : Instance) : Pending DebuggerReply :=
  ((s.tab? t).map (·.pending)).getD {}

def setTabTable (s : State) (t : Instance) (p : Pending DebuggerReply) : State :=
  s.modifyTab t fun tab => { tab with pending := p }

/-- The ticket that the next waiter in the table of a request gets. -/
def nextTicket (s : State) (r : Request) : Ticket :=
  match r.tab? with
  | some t => (s.tabTable t).nextTicket
  | none => (s.serviceTable r).nextTicket

/-- Takes a place in the table in which a request waits. -/
def join (s : State) (r : Request) : State :=
  match r.tab? with
  | some t => s.setTabTable t ((s.tabTable t).register r.command).2
  | none => s.setServiceTable r ((s.serviceTable r).register r.command).2

/-- Gives up the place in the table in which a request waits. -/
def leave (s : State) (r : Request) (ticket : Ticket) : State :=
  match r.tab? with
  | some t => s.setTabTable t ((s.tabTable t).leave r.command ticket)
  | none => s.setServiceTable r ((s.serviceTable r).leave r.command ticket)

/-- When a wait for the reply to a request ends that starts now. -/
def deadlineOf (s : State) (r : Request) : Nat := s.deadline (s.allowance r)

/-- A call takes its place in the table and begins to wait. -/
def enter (s : State) (c : Call) : State :=
  (s.join c.request).setPoint c.id (.awaiting (s.nextTicket c.request) (s.deadlineOf c.request))

/-- Records the listener of an attach that is now under way. -/
def mark (s : State) (t : Instance) (listener : Listener) : State :=
  s.modifyTab t fun tab => { tab with listener := some listener, attaching := true }

/-- The attach of a request, if it is one, is not under way any more. -/
def unmark (s : State) : Request → State
  | .attach t _ => s.modifyTab t fun tab => { tab with attaching := false }
  | _ => s

/-- A call stops waiting and gives back what it holds: its place, the mark of an attach that is
under way, and its lock. -/
def quit (s : State) (c : Call) (ticket : Ticket) : State :=
  ((s.leave c.request ticket).unmark c.request).retire c

/-- How a wait has ended, if it has. -/
def waitEnd? {α : Type} (s : State) (p : Pending α) (r : Request) (ticket : Ticket)
    (deadline : Nat) : Option (Except TransportError α) :=
  match p.receiver? ticket with
  | some (.answered value) => some (.ok value)
  | some .failed => some (.error .channelClosed)
  | _ =>
    if deadline ≤ s.clock then some (.error (.timeout (.reply r.command (s.allowance r)))) else none

/-! ### Results -/

/-- The outcome of an exchange that must be answered with OK. -/
def checked : Except TransportError ServiceResponse → Except EngineError ServiceResponse
  | .error e => .error (.connection e)
  | .ok response =>
    if response.result.isOk then .ok response
    else .error (.refused response.command response.result)

def listing (r : Except TransportError ServiceResponse) : Except EngineError (List TabEntry) := do
  match (← checked r).tabs with
  | .ok entries => .ok entries
  | .error cause => .error (.malformed cause)

/-- The version in a response; there is none if the server refused to tell it. -/
def versionIn (s : State) (response : ServiceResponse) : State × Option Version :=
  if response.result.isOk then (s, response.version?)
  else (s.log (.versionRefused response.result), none)

/-- The end of a connect call: the versions must go together. -/
def connectEnds (s : State) (c : Call) (response : ServiceResponse) : State :=
  let (s, server) := s.versionIn response
  if server.any s.config.acceptsServer then { s with networkReady := true }.report c (.done (.ok ()))
  else
    let s := { s with networkReady := false }.log (.incompatibleServer server s.config.version)
    s.report c (.done (.error (.versionIncompatible s.config.version server)))

/-- The end of a discovery. -/
def tabsEnd (s : State) (c : Call) (entries : List TabEntry) : State :=
  let (s, ts) := s.adoptAll entries
  s.report c (.tabs (.ok (ts.filterMap s.listed?)))

/-- The end of a call to a service. -/
def serviceEnds (s : State) (c : Call) (r : Except TransportError ServiceResponse) : State :=
  match c.request with
  | .connect =>
    match r with
    | .error e => s.report c (.done (.error (.connection e)))
    | .ok response => s.connectEnds c response
  | .tabs =>
    match listing r with
    | .error e => s.report c (.tabs (.error e))
    | .ok entries => s.tabsEnd c entries
  | .service .version _ =>
    match r with
    | .error e => s.report c (.version (.error e))
    | .ok response =>
      let (s, version) := s.versionIn response
      s.report c (.version (.ok version))
  | .service .listTabs _ => s.report c (.entries (listing r))
  | _ => s.report c (.done ((checked r).map fun _ => ()))

/-- Notes that a tab's debugger refused an exchange. -/
def logRejected (s : State) (t : Instance) (h : Handshake) (code : ResultCode) : State :=
  match s.tab? t with
  | some tab => s.log (.rejected h code tab.id)
  | none => s

def attachEnds (s : State) (c : Call) (t : Instance) (r : Except TransportError DebuggerReply) :
    State :=
  match r with
  | .error e => s.report c (.handshake (.error (.transport e)))
  | .ok reply =>
    if reply.code.isOk then
      (s.modifyTab t fun tab => { tab with attached := true }).report c (.handshake (.ok ()))
    else
      (s.logRejected t .attach reply.code).report c
        (.handshake (.error (.rejected .attach reply.code)))

def detachEnds (s : State) (c : Call) (t : Instance) (r : Except TransportError DebuggerReply) :
    State :=
  match r with
  | .error e => s.report c (.handshake (.error (.transport e)))
  | .ok reply =>
    if reply.code.isOk then (s.detached t).report c (.handshake (.ok ()))
    else
      (s.logRejected t .detach reply.code).report c
        (.handshake (.error (.rejected .detach reply.code)))

/-- The end of an exchange with a tab's debugger. -/
def handshakeEnds (s : State) (c : Call) (t : Instance) (r : Except TransportError DebuggerReply) :
    State :=
  match c.request with
  | .attach .. => s.attachEnds c t r
  | _ => s.detachEnds c t r

/-- The end of a call whose request did not go out. -/
def sendFails (s : State) (c : Call) (e : TransportError) : State :=
  match c.request.tab? with
  | some t => s.handshakeEnds c t (.error e)
  | none => s.serviceEnds c (.error e)

/-! ### Going on -/

/-- Looks whether the wait of a call is over, and if so takes the call to its end. -/
def poll (s : State) (c : Call) (ticket : Ticket) (deadline : Nat) : State :=
  match c.request.tab? with
  | some t =>
    match s.waitEnd? (s.tabTable t) c.request ticket deadline with
    | some r => (s.quit c ticket).handshakeEnds c t r
    | none => s
  | none =>
    match s.waitEnd? (s.serviceTable c.request) c.request ticket deadline with
    | some r => (s.quit c ticket).serviceEnds c r
    | none => s

/-- Sends the request of a call, which has its place in the table before. -/
def ask (s : State) (c : Call) (m : Message) : State :=
  match (s.enter c).send (some c.id) m with
  | (s', .ok ()) => s'.poll c (s.nextTicket c.request) (s.deadlineOf c.request)
  | (s', .error e) => (s'.quit c (s.nextTicket c.request)).sendFails c e

/-- Makes the session's service handler, with which the session becomes the connection's
listener, if there is none yet. -/
def ensureService (s : State) : State :=
  match s.service with
  | some _ => s
  | none =>
    { s with
      service := some {}
      connection := { s.connection with listeners := s.connection.listeners + 1 } }

def startConnection (s : State) : State × Except TransportError Unit :=
  let (connection, r) := s.connection.start
  ({ s with connection }, r)

def beginConnect (s : State) (c : Call) : State :=
  let s := s.ensureService
  if s.connection.connected && s.networkReady then s.finish c (.done (.ok ()))
  else if s.connection.connected then s.ask c ServiceCommand.version.toMessage
  else
    match s.startConnection with
    | (s, .ok ()) => s.ask c ServiceCommand.version.toMessage
    | (s, .error e) => s.finish c (.done (.error (.connection e)))

/-- Records the listener and marks the tab, so that no discovery replaces it, then asks. -/
def beginAttach (s : State) (c : Call) (t : Instance) (listener : Listener) : State :=
  let s := s.mark t listener
  let s := if s.alive then s.register t else s
  match s.tab? t with
  | none => (s.unmark c.request).finish c (.handshake (.error .notAttached))
  | some tab =>
    if tab.attached then (s.unmark c.request).finish c (.handshake (.error .alreadyAttached))
    else s.ask c (DebuggerCommand.attach.toMessage tab.id)

def beginDetach (s : State) (c : Call) (t : Instance) : State :=
  match s.tab? t with
  | none => s.finish c (.handshake (.error .notAttached))
  | some tab =>
    if tab.attached then s.ask c (DebuggerCommand.detach.toMessage tab.id)
    else s.finish c (.handshake (.error .notAttached))

/-- What a call does once nothing keeps it back. -/
def begin (s : State) (c : Call) : State :=
  match c.request with
  | .connect => s.beginConnect c
  | .ping =>
    if s.connection.connected then s.ensureService.ask c ServiceCommand.ping.toMessage
    else s.finish c (.done (.error (.illegalState .notConnected)))
  | .tabs =>
    if s.connection.connected then s.purge.ensureService.ask c ServiceCommand.listTabs.toMessage
    else s.finish c (.tabs (.error (.illegalState .notConnected)))
  | .attach t listener => s.beginAttach c t listener
  | .detach t => s.beginDetach c t
  | .service command _ => s.ask c command.toMessage

/-- Whether a call can go on. -/
def runnable (s : State) (c : Call) : Bool :=
  match c.point with
  | .fresh => true
  | .queued => s.holds c
  | .awaiting ticket deadline =>
    match c.request.tab? with
    | some t => (s.waitEnd? (s.tabTable t) c.request ticket deadline).isSome
    | none => (s.waitEnd? (s.serviceTable c.request) c.request ticket deadline).isSome

/-- Takes a call as far as it can go. -/
def resume (s : State) (c : Call) : State :=
  match c.point with
  | .fresh =>
    let s := s.changeLock c.request (· ++ [c.id])
    if s.holds c then s.begin c else s.setPoint c.id .queued
  | .queued => if s.holds c then s.begin c else s
  | .awaiting ticket deadline => s.poll c ticket deadline

/-- Whether a call can be made: its number is new, its tab exists, and the browser is there if
the call is one of the browser. -/
def canStart (s : State) (id : CallId) (r : Request) : Bool :=
  (s.call? id).isNone && (r.tab?.all fun t => (s.tab? t).isSome) && (!r.holdsSession || s.browser)

def start (s : State) (id : CallId) (r : Request) : State :=
  if !s.canStart id r then s
  else { s with calls := s.calls ++ [({ id, request := r } : Call)] }

/-- Drops a call midway, as if it had never waited. -/
def cancel (s : State) (id : CallId) : State :=
  match s.call? id with
  | none => s
  | some c =>
    match c.point with
    | .awaiting ticket _ => s.quit c ticket
    | _ => s.retire c

/-- Sends a command to the debugger of a tab that nobody waits for. -/
def command (s : State) (t : Instance) (c : DebuggerCommand) : State × Except EngineError Unit :=
  match (s.tab? t).filter (·.attached) with
  | none => (s, .error (.illegalState .tabNotAttached))
  | some tab =>
    match s.send none (c.toMessage tab.id) with
    | (s, .ok ()) => (s, .ok ())
    | (s, .error e) => (s, .error (.connection e))

end State

end RemoteDebug.Engine
