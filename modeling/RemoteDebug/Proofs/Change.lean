import Mathlib.Logic.Relation
import RemoteDebug.Proofs.View

/-! What can happen to a session, in small steps.

`Change` lists what a call can do while it goes on: each constructor is one
operation with what has been checked before it. `Move` adds what comes from
outside: a new call, a reply, time, and the end of an attachment with all that
it brings about. In between, `ReplyFreeMove` leaves out the replies,
`BypassFreeMove` what goes past the connection, and `EndFreeMove` the ends. A
rule that every `Move` keeps is kept by every run. -/
namespace RemoteDebug.Engine
open Protocol Wire

/-- An entry that is neither the grant of an attach nor the end of something. -/
def Entry.isQuiet : Entry → Bool
  | .connectionClosed => false
  | .event _ .contextDetached | .event _ (.disconnected _) => false
  | .finished _ (.attach ..) (.handshake (.ok ())) => false
  | _ => true

/-- A quiet entry that is not the request of a call. -/
def Entry.isPlain (e : Entry) : Bool :=
  match e with
  | .sent (some _) _ => false
  | _ => e.isQuiet

theorem Entry.isQuiet_of_isPlain {e : Entry} (h : e.isPlain = true) : e.isQuiet = true := by
  unfold isPlain at h
  split at h
  · cases h
  · exact h

/-- Not waiting for a reply. -/
def Call.Idle (c : Call) : Prop := ∀ k d, c.point ≠ .awaiting k d

namespace State

/-- No live instance receives the messages of an id. -/
def Vacant (s : State) (id : TabId) : Prop := ∀ u, s.registered? id = some u → s.isLive u = false

/-- What a request is about is in the right condition for it. -/
def Fits (s : State) : Request → Prop
  | .attach t _ => s.isAttached t = false ∧ (s.view.listener t).isSome = true
  | .detach t => s.isAttached t = true
  | .service .. => True
  | _ => s.service.isSome = true

/-- A call that may send its request. -/
structure Ready (s : State) (c : Call) : Prop where
  mem : c ∈ s.calls
  idle : c.Idle
  holds : s.holds c = true
  tab : s.hasTab c.request
  fits : s.Fits c.request

/-- A call takes its place and its request goes out. -/
def asked (s : State) (c : Call) (m : Message) : State := ((s.enter c).send (some c.id) m).1

/-- A call takes its place, but its request does not go out. -/
def refused (s : State) (c : Call) (m : Message) : State :=
  (s.asked c m).quit c (s.nextTicket c.request)

/-- The attach of a tab is granted. -/
def granted (s : State) (c : Call) (t : Instance) (ticket : Ticket) : State :=
  ((s.quit c ticket).modifyTab t fun tab => { tab with attached := true }).report c (.handshake (.ok ()))

/-- What a call can do while it goes on. -/
inductive Change (s : State) : State → Prop
  | noted (es : List Entry) (plain : ∀ e ∈ es, e.isPlain = true) : Change s (s.note es)
  | rewired (c : Connection) (lasts : s.connection.connected = true → c.connected = true)
      (opens : c.connected = true → s.connection.connected = true ∨ s.service.isSome = true)
      (listeners : c.listeners = s.connection.listeners) (closes : c.closes = s.connection.closes)
      (inbound : c.inbound.length ≤ s.connection.inbound.length) :
      Change s { s with connection := c }
  | readied (ready : Bool) : Change s { s with networkReady := ready }
  | served : Change s s.ensureService
  | marked (t : Instance) (l : Listener) (tab : (s.tab? t).isSome = true) : Change s (s.mark t l)
  | unmarked (r : Request) : Change s (s.unmark r)
  | purged : Change s s.purge
  | enrolled (c : Call) (t : Instance) (tab : Tab) (mem : c ∈ s.calls) (idle : c.Idle)
      (holds : s.holds c = true) (about : c.request.tab? = some t) (known : s.tab? t = some tab)
      (vacant : s.Vacant tab.id) : Change s (s.enroll tab.id t)
  | created (e : TabEntry) (vacant : s.Vacant e.id) : Change s (s.create e).1
  | lined (c : Call) (mem : c ∈ s.calls) (fresh : c.point = .fresh) :
      Change s (s.changeLock c.request (· ++ [c.id]))
  | queued (c : Call) (mem : c ∈ s.calls) (fresh : c.point = .fresh) :
      Change s (s.setPoint c.id .queued)
  | asked (c : Call) (m : Message) (ready : s.Ready c)
      (sent : ((s.enter c).send (some c.id) m).2 = .ok ()) : Change s (s.asked c m)
  | refused (c : Call) (m : Message) (ready : s.Ready c) (e : TransportError)
      (unsent : ((s.enter c).send (some c.id) m).2 = .error e) : Change s (s.refused c m)
  | quit (c : Call) (k : Ticket) (d : Nat) (mem : c ∈ s.calls) (waits : c.point = .awaiting k d) :
      Change s (s.quit c k)
  | retired (c : Call) (mem : c ∈ s.calls) (idle : c.Idle) : Change s (s.retire c)
  | granted (c : Call) (t : Instance) (l : Listener) (k : Ticket) (d : Nat) (v : DebuggerReply)
      (mem : c ∈ s.calls) (about : c.request = .attach t l) (waits : c.point = .awaiting k d)
      (answered : (s.tabTable t).receiver? k = some (.answered v)) : Change s (s.granted c t k)

def Changes : State → State → Prop := Relation.ReflTransGen Change

/-- A reply to a command reaches the first who waits for one at a desk. -/
inductive Answer (s : State) : Desk → String → State → Prop
  | session (p : Pending ServiceResponse) (known : s.service = some p) (command : String)
      (v : ServiceResponse) :
      Answer s .session command { s with service := some (p.complete command v).2 }
  | separate (command : String) (v : ServiceResponse) :
      Answer s .separate command { s with separate := (s.separate.complete command v).2 }
  | tab (t : Instance) (known : (s.tab? t).isSome = true) (command : String) (v : DebuggerReply) :
      Answer s (.tab t) command (s.setTabTable t ((s.tabTable t).complete command v).2)

/-- An instance is in the registry. -/
def Enlisted (s : State) (t : Instance) : Prop := ∃ id, (id, t) ∈ s.registry

/-- What can happen to a session without a reply, and without the end of an attachment. -/
inductive ReplyFreeMove (s : State) : State → Prop
  | change {s' : State} (h : Change s s') : ReplyFreeMove s s'
  | opened (id : CallId) (r : Request) (can : s.canStart id r = true) :
      ReplyFreeMove s { s with calls := s.calls ++ [({ id, request := r } : Call)] }
  | wired (c : Connection) (connected : c.connected = s.connection.connected)
      (listeners : c.listeners = s.connection.listeners) (closes : c.closes = s.connection.closes) :
      ReplyFreeMove s { s with connection := c }
  | tweaked (t : Instance) (f : Tab → Tab) (keeps : Keeps f) : ReplyFreeMove s (s.modifyTab t f)
  | aged (ms : Nat) : ReplyFreeMove s { s with clock := s.clock + ms }
  | separated : ReplyFreeMove s { s with separate := s.separate.failAll }

/-- What can happen to a session as long as nothing goes past the connection, the owner keeps the
browser and no attachment ends: the connection can bring a reply too, which reaches a tab by the
registry. -/
inductive BypassFreeMove (s : State) : State → Prop
  | replyFree {s' : State} (h : ReplyFreeMove s s') : BypassFreeMove s s'
  | answer {d : Desk} {command : String} {s' : State} (h : Answer s d command s')
      (routed : ∀ t, d = .tab t → s.Enlisted t) : BypassFreeMove s s'

/-- What can happen to a session without the end of an attachment. -/
inductive EndFreeMove (s : State) : State → Prop
  | bypassFree {s' : State} (h : BypassFreeMove s s') : EndFreeMove s s'
  /-- A reply reaches a tab past the connection. -/
  | handed {t : Instance} {command : String} {s' : State} (h : Answer s (.tab t) command s') : EndFreeMove s s'
  | dropped : EndFreeMove s { s with browser := false }

/-- What can happen to a session: an attachment can end too, and the connection. -/
inductive Move (s : State) : State → Prop
  | endFree {s' : State} (h : EndFreeMove s s') : Move s s'
  | performed (d : Duty) : Move s (s.perform d).1
  | closed : Move s s.close.1

def ReplyFreeMoves : State → State → Prop := Relation.ReflTransGen ReplyFreeMove

def BypassFreeMoves : State → State → Prop := Relation.ReflTransGen BypassFreeMove

def EndFreeMoves : State → State → Prop := Relation.ReflTransGen EndFreeMove

def Moves : State → State → Prop := Relation.ReflTransGen Move

theorem Changes.replyFree {s s' : State} (h : Changes s s') : ReplyFreeMoves s s' :=
  Relation.ReflTransGen.lift id (fun _ _ => ReplyFreeMove.change) s s' h

theorem ReplyFreeMoves.bypassFree {s s' : State} (h : ReplyFreeMoves s s') : BypassFreeMoves s s' :=
  Relation.ReflTransGen.lift id (fun _ _ => BypassFreeMove.replyFree) s s' h

theorem Changes.bypassFree {s s' : State} (h : Changes s s') : BypassFreeMoves s s' := h.replyFree.bypassFree

theorem BypassFreeMoves.endFree {s s' : State} (h : BypassFreeMoves s s') : EndFreeMoves s s' :=
  Relation.ReflTransGen.lift id (fun _ _ => EndFreeMove.bypassFree) s s' h

theorem EndFreeMoves.moves {s s' : State} (h : EndFreeMoves s s') : Moves s s' :=
  Relation.ReflTransGen.lift id (fun _ _ => Move.endFree) s s' h

/-- What one duty after the other keeps holds in the end. -/
theorem unwind_induction {P : State → List Duty → Prop}
    (step : ∀ s d rest, P s (d :: rest) → P (s.perform d).1 ((s.perform d).2 ++ rest))
    (s : State) (duties : List Duty) (h : P s duties) : P (s.unwind duties) [] := by
  induction s, duties using unwind.induct with
  | case1 s =>
    rw [unwind]
    exact h
  | case2 s d rest ih =>
    rw [unwind]
    exact ih (step s d rest h)

theorem moves_unwind (s : State) (duties : List Duty) : Moves s (s.unwind duties) :=
  unwind_induction (P := fun s' _ => Moves s s') (fun _ d _ h => h.tail (.performed d)) s duties .refl

end State
end RemoteDebug.Engine
