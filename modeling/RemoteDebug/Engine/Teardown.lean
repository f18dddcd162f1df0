import RemoteDebug.Engine.State

/-! How attachments end.

Ending one attachment can end others: the session drops the tab and, if no live
tab is left, closes the connection, which ends every attachment. `unwind` works
through a list of such duties, the duties that one brings about first. Each tab is
detached at most once and the connection closes at most once, so the list runs
out: `State.load` bounds the steps. -/
namespace RemoteDebug.Engine
open Protocol

/-- Something still to be done. -/
inductive Duty where
  /-- Tell an instance that its debugger is detached. -/
  | detach (tab : Instance)
  /-- Drop the tab that is registered under an id. -/
  | terminate (id : TabId)
  /-- Close the connection if no live tab needs it. -/
  | closeIfIdle
  deriving DecidableEq, Repr

/-- A tab without its attachment: whoever waits for it fails. -/
def Tab.cutOff (t : Tab) : Tab := { t with attached := false, pending := t.pending.failAll }

namespace State

/-- A living session hears what happens on the connection. -/
def listens (s : State) : Bool := 0 < s.connection.listeners && s.alive

/-- Closes the connection. If the session hears of it, its service calls fail and every
registered tab is to be detached. -/
def close (s : State) : State × List Duty :=
  if s.connection.connected then
    if s.listens then
      (({ s with
          connection := s.connection.close
          networkReady := false
          service := s.service.map Pending.failAll } : State).record .connectionClosed,
        s.registry.map (.detach ·.2))
    else ({ s with connection := s.connection.close }, [])
  else (s, [])

/-- The collaborators of a tab hear that it is detached. -/
def announceDetached (s : State) (t : Instance) : State :=
  (s.record (.event t .contextDetached)).tell t .disconnected

def perform (s : State) : Duty → State × List Duty
  | .detach t =>
    let freed := s.modifyTab t Tab.cutOff
    if s.isAttached t then
      (freed.announceDetached t,
        if s.alive then ((s.tab? t).map (Duty.terminate ·.id)).toList else [])
    else (freed, [])
  | .terminate id =>
    match s.registered? id with
    | none => (s, [.closeIfIdle])
    | some t => (s.strike id, if s.isAttached t then [.detach t, .closeIfIdle] else [.closeIfIdle])
  | .closeIfIdle => if s.hasLive then (s, []) else s.close

end State

/-! ### The bound -/

def Duty.weight : Duty → Nat
  | .terminate _ => 3
  | _ => 1

def weigh : List Duty → Nat
  | [] => 0
  | d :: rest => d.weight + weigh rest

theorem weigh_map_detach (r : List (TabId × Instance)) :
    weigh (r.map (.detach ·.2)) = r.length := by
  induction r with
  | nil => rfl
  | cons x r ih => simp_all [weigh, Duty.weight]; omega

theorem countP_modify_cutOff (l : List Tab) (t : Nat) :
    (l.modify t Tab.cutOff).countP (·.attached) + (if (l[t]?).any (·.attached) then 1 else 0) =
      l.countP (·.attached) := by
  induction l generalizing t with
  | nil => simp
  | cons x l ih =>
    cases t with
    | zero => simp [List.countP_cons, Tab.cutOff]
    | succ t =>
      have := ih t
      simp only [List.modify_succ_cons, List.countP_cons, List.getElem?_cons_succ]
      omega

namespace State

/-- What the connection can still contribute: a duty for each registered tab. -/
def closeLoad (s : State) : Nat :=
  if s.connection.connected then s.registry.length + 1 else 0

/-- What the state can still contribute to a list of duties. -/
def load (s : State) : Nat := 4 * s.tabs.countP (·.attached) + s.closeLoad

@[simp] theorem load_record (s : State) (e : Entry) : (s.record e).load = s.load := rfl

@[simp] theorem load_tell (s : State) (t : Instance) (what : Listener → TabEvent) :
    (s.tell t what).load = s.load := by
  unfold tell
  split <;> rfl

@[simp] theorem load_announceDetached (s : State) (t : Instance) :
    (s.announceDetached t).load = s.load := by simp [announceDetached]

theorem load_cutOff (s : State) (t : Instance) :
    (s.modifyTab t Tab.cutOff).load + (if s.isAttached t then 4 else 0) = s.load := by
  have h := countP_modify_cutOff s.tabs t
  change 4 * (s.tabs.modify t Tab.cutOff).countP (·.attached) + s.closeLoad + _ =
    4 * s.tabs.countP (·.attached) + s.closeLoad
  unfold isAttached tab?
  split at h <;> simp_all
  omega

theorem load_strike_le (s : State) (id : TabId) : (s.strike id).load ≤ s.load := by
  have := List.length_filter_le (fun r : TabId × Instance => r.1 != id) s.registry
  by_cases h : s.connection.connected <;> simp [load, closeLoad, strike, h, this]

theorem load_close (s : State) : weigh s.close.2 + s.close.1.load ≤ s.load := by
  unfold close
  split
  · next h =>
    split
    · simp only [load_record, weigh_map_detach]
      simp [load, closeLoad, Connection.close, h]
      omega
    · simp [weigh, load, closeLoad, Connection.close]
  · simp [weigh]

theorem load_perform (s : State) (d : Duty) :
    weigh (s.perform d).2 + (s.perform d).1.load < d.weight + s.load := by
  cases d with
  | detach t =>
    have h := s.load_cutOff t
    simp only [perform, Duty.weight]
    split <;> rename_i ha
    · simp only [ha, if_true] at h
      simp only [load_announceDetached]
      have : weigh (if s.alive then ((s.tab? t).map (Duty.terminate ·.id)).toList else []) ≤ 3 := by
        cases s.alive <;> cases s.tab? t <;> simp [weigh, Duty.weight]
      omega
    · simp only [ha, Bool.false_eq_true, if_false] at h
      simp [weigh]
      omega
  | terminate id =>
    have := s.load_strike_le id
    simp only [perform, Duty.weight]
    split
    · simp [weigh, Duty.weight]
    · split <;> simp [weigh, Duty.weight] <;> omega
  | closeIfIdle =>
    have := s.load_close
    simp only [perform, Duty.weight]
    split
    · simp [weigh]
    · omega

end State

theorem weigh_append (a b : List Duty) : weigh (a ++ b) = weigh a + weigh b := by
  induction a with
  | nil => simp [weigh]
  | cons d rest ih => simp only [List.cons_append, weigh, ih, Nat.add_assoc]

namespace State

/-- Does what is to be done, and what that brings about. -/
def unwind (s : State) (duties : List Duty) : State :=
  match duties with
  | [] => s
  | d :: rest => unwind (s.perform d).1 ((s.perform d).2 ++ rest)
termination_by weigh duties + s.load
decreasing_by
  have := s.load_perform d
  rw [weigh, weigh_append]
  omega

/-- Closes the connection and ends every attachment with it. -/
def shutDown (s : State) : State := s.close.1.unwind s.close.2

/-- An instance is told that its debugger is detached. -/
def detached (s : State) (t : Instance) : State := s.unwind [.detach t]

/-- The session is told that a tab is finished. -/
def terminated (s : State) (id : TabId) : State := s.unwind [.terminate id]

/-- A tab tells its session, if there still is one, that it is finished. -/
def tabTerminated (s : State) (t : Instance) : State :=
  match s.tab? t with
  | some tab => if s.alive then s.terminated tab.id else s
  | none => s

end State

end RemoteDebug.Engine
