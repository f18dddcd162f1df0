import RemoteDebug.Engine.Config
import RemoteDebug.Engine.Connection
import RemoteDebug.Engine.Journal
import RemoteDebug.Engine.Pending

/-! The state of a session: its connection, its tabs, and the calls in progress.

A tab instance lives for ever, by its number; the registry says which instance
receives the messages of an id. A call in progress is at one of three points:
not run yet, in the queue of a lock, or waiting for a reply until a deadline. The
first call in a queue holds the lock. -/
namespace RemoteDebug.Engine
open Protocol Wire

structure Tab where
  id : TabId
  url : String
  attached : Bool := false
  /-- An attach exchange is under way. -/
  attaching : Bool := false
  pending : Pending DebuggerReply := {}
  listener : Option Listener := none
  /-- The attach and detach calls that hold or wait for the tab. -/
  lock : List CallId := []
  /-- How many breakpoints the tab's context was asked for. -/
  breakpoints : Nat := 0
  deriving Inhabited

/-- Attached or attaching. -/
def Tab.isLive (t : Tab) : Bool := t.attached || t.attaching

inductive Point where
  | fresh
  | queued
  | awaiting (ticket : Ticket) (deadline : Nat)
  deriving DecidableEq, Repr, Inhabited

structure Call where
  id : CallId
  request : Request
  point : Point := .fresh
  deriving DecidableEq, Repr, Inhabited

structure State where
  config : Config := {}
  connection : Connection := {}
  tabs : List Tab := []
  registry : List (TabId × Instance) := []
  /-- The session's service handler, once there is one. -/
  service : Option (Pending ServiceResponse) := none
  /-- The version check passed on the current connection. -/
  networkReady : Bool := false
  /-- The connect calls that hold or wait for the connection. -/
  connectLock : List CallId := []
  /-- The owner still holds the browser. -/
  browser : Bool := true
  calls : List Call := []
  /-- A second service handler on the same connection, which no message is routed to. -/
  separate : Pending ServiceResponse := {}
  /-- Milliseconds. -/
  clock : Nat := 0
  journal : List Entry := []
  deriving Inhabited

namespace State

/-- A session before anything has happened, on a connection with its script. -/
def initial (config : Config) (restartable : Bool) (rules : List (String × Json)) : State :=
  { config, connection := { restartable, rules } }

def record (s : State) (e : Entry) : State := { s with journal := s.journal ++ [e] }

def log (s : State) (n : Notice) : State := s.record (.notice n)

/-- The session lives as long as the browser or a call that holds it. -/
def alive (s : State) : Bool := s.browser || s.calls.any (·.request.holdsSession)

def tab? (s : State) (t : Instance) : Option Tab := s.tabs[t]?

def modifyTab (s : State) (t : Instance) (f : Tab → Tab) : State :=
  { s with tabs := s.tabs.modify t f }

def isAttached (s : State) (t : Instance) : Bool := (s.tab? t).any (·.attached)

def isLive (s : State) (t : Instance) : Bool := (s.tab? t).any (·.isLive)

/-- The instance that receives the messages of an id. -/
def registered? (s : State) (id : TabId) : Option Instance := s.registry.lookup id

/-- Makes an instance the receiver for its id, in the place of another one or as the last. -/
def enroll (s : State) (id : TabId) (t : Instance) : State :=
  { s with registry := assign id t s.registry }

def strike (s : State) (id : TabId) : State :=
  { s with registry := s.registry.filter (·.1 != id) }

/-- Some registered tab is attached or attaching. -/
def hasLive (s : State) : Bool := s.registry.any fun r => s.isLive r.2

def hasAttached (s : State) : Bool := s.registry.any fun r => s.isAttached r.2

def call? (s : State) (id : CallId) : Option Call := s.calls.find? (·.id == id)

def setPoint (s : State) (id : CallId) (p : Point) : State :=
  { s with calls := s.calls.map fun c => if c.id = id then { c with point := p } else c }

/-- Sends a message, for a call or for nobody, and records it if it went out. -/
def send (s : State) (asker : Option CallId) (m : Message) : State × Except TransportError Unit :=
  let (connection, result) := s.connection.send m
  let s := { s with connection }
  match result with
  | .ok () => (s.record (.sent asker m), .ok ())
  | .error e => (s, .error e)

/-- Tells the recorded listener of a tab of an event, if there is one. -/
def tell (s : State) (t : Instance) (what : Listener → TabEvent) : State :=
  match (s.tab? t).bind (·.listener) with
  | some l => s.record (.event t (what l))
  | none => s

/-- When a wait of so many nanoseconds that starts now ends: whole milliseconds, rounded up. -/
def deadline (s : State) (nanos : Nat) : Nat := s.clock + (nanos + 999999) / 1000000

end State

end RemoteDebug.Engine
