import RemoteDebug.Engine.State

/-! How tabs enter and leave the registry.

A discovery first purges the tabs that are not live and then lists the tabs of the
server: a live registered instance is listed again, any other id gets a new
instance. An attach puts its own instance in the place of one that is not live. -/
namespace RemoteDebug.Engine
open Protocol

namespace State

/-- Drops the registered tabs that are not live. -/
def purge (s : State) : State := { s with registry := s.registry.filter fun r => s.isLive r.2 }

/-- Makes a new instance of a tab and registers it. -/
def create (s : State) (e : TabEntry) : State × Instance :=
  let t := s.tabs.length
  let s := { s with tabs := s.tabs ++ [({ id := e.id, url := e.url } : Tab)] }
  ((s.record (.event t (.created e.id e.url))).enroll e.id t, t)

/-- The live instance of a listed tab, or a new one. -/
def adopt (s : State) (e : TabEntry) : State × Instance :=
  match s.registered? e.id with
  | some t => if s.isLive t then (s, t) else s.create e
  | none => s.create e

def adoptAll (s : State) : List TabEntry → State × List Instance
  | [] => (s, [])
  | e :: rest =>
    let (s, t) := s.adopt e
    let (s, ts) := s.adoptAll rest
    (s, t :: ts)

/-- An instance as a listing shows it. -/
def listed? (s : State) (t : Instance) : Option Listed :=
  (s.tab? t).map fun tab => ⟨tab.id, tab.url, tab.attached, t⟩

/-- Makes an instance the receiver for its id, unless a live one already is. -/
def register (s : State) (t : Instance) : State :=
  match s.tab? t with
  | none => s
  | some tab =>
    match s.registered? tab.id with
    | some u => if u = t || s.isLive u then s else s.enroll tab.id t
    | none => s.enroll tab.id t

end State

end RemoteDebug.Engine
