import RemoteDebug.Engine.Call

/-! Everything that can happen to a session, one event at a time.

A history is a list of actions in any order: a call may go on long after its reply
came, and messages may be delivered in between. `settle` follows one such order, in
which the lowest runnable call goes first and messages are delivered only when no
call can go on; it ends where nothing is left to do. -/
namespace RemoteDebug.Engine
open Protocol Wire

inductive Action where
  | start (id : CallId) (request : Request)
  | resume (id : CallId)
  | cancel (id : CallId)
  /-- The connection hands its oldest message to its listener. -/
  | receive
  /-- The connection hands a message of its own making to its listener. -/
  | deliver (m : Message)
  /-- A message reaches a tab past the connection. -/
  | handle (tab : Instance) (m : Message)
  /-- The connection closes, whoever wants it. -/
  | close
  /-- The session is told that a tab is finished. -/
  | terminate (id : TabId)
  /-- A tab tells its session that it is finished. -/
  | tabTerminated (tab : Instance)
  /-- A tab is told that its debugger is detached. -/
  | detached (tab : Instance)
  /-- A command that nobody waits for. -/
  | command (tab : Instance) (c : DebuggerCommand)
  | breakpoint (tab : Instance) (spec : BreakpointSpec)
  | scripts (tab : Instance)
  | separateMessage (m : Message)
  | separateDetached
  | answerWith (key : String) (content : Json)
  | failStart (e : TransportError)
  | failSend (e : TransportError)
  /-- Time passes, in milliseconds. -/
  | advance (ms : Nat)
  | dropBrowser

namespace State

/-- The context of a tab is asked for something. -/
def askContext (s : State) (t : Instance) (what : TabEvent) (f : Tab → Tab) : State :=
  match s.tab? t with
  | some _ => (s.record (.event t what)).modifyTab t f
  | none => s

def act (s : State) : Action → State
  | .start id r => s.start id r
  | .resume id => match s.call? id with
    | some c => s.resume c
    | none => s
  | .cancel id => s.cancel id
  | .receive => s.receive
  | .deliver m => s.deliver m
  | .handle t m => s.tabMessage t m
  | .close => s.shutDown
  | .terminate id => if s.alive then s.terminated id else s
  | .tabTerminated t => s.tabTerminated t
  | .detached t => s.detached t
  | .command t c => (s.command t c).1
  | .breakpoint t spec =>
    s.askContext t (.breakpoint spec) fun tab => { tab with breakpoints := tab.breakpoints + 1 }
  | .scripts t => s.askContext t .scripts id
  | .separateMessage m => s.separateMessage m
  | .separateDetached => { s with separate := s.separate.failAll }
  | .answerWith key content => { s with connection := s.connection.setRule key content }
  | .failStart e =>
    { s with connection := { s.connection with startFaults := s.connection.startFaults ++ [e] } }
  | .failSend e =>
    { s with connection := { s.connection with sendFaults := s.connection.sendFaults ++ [e] } }
  | .advance ms => { s with clock := s.clock + ms }
  | .dropBrowser => { s with browser := false }

def run (s : State) (actions : List Action) : State := actions.foldl act s

@[simp] theorem run_nil (s : State) : s.run [] = s := rfl

@[simp] theorem run_cons (s : State) (a : Action) (rest : List Action) :
    s.run (a :: rest) = (s.act a).run rest := rfl

theorem run_append (s : State) (a b : List Action) : s.run (a ++ b) = (s.run a).run b :=
  List.foldl_append

/-! ### One order -/

/-- The next action of the order: the lowest call that can go on, else the next message. -/
def next? (s : State) : Option Action :=
  match ((s.calls.filter s.runnable).map (·.id)).min? with
  | some id => some (.resume id)
  | none => if s.connection.inbound.isEmpty then none else some .receive

/-- No call can go on, and no message waits. -/
def Settled (s : State) : Prop := s.next? = none

instance (s : State) : Decidable s.Settled :=
  decidable_of_iff (s.next?.isNone = true) (by simp [Settled])

def settleIn : Nat → State → State
  | 0, s => s
  | fuel + 1, s =>
    match s.next? with
    | some a => settleIn fuel (s.act a)
    | none => s

/-- Lets everything happen that can happen without more time or another message. A call goes on
at most three times and sends at most one request, which is answered at most once. -/
def settle (s : State) : State :=
  settleIn (4 * s.calls.length + s.connection.inbound.length) s

end State

end RemoteDebug.Engine
