import RemoteDebug.Engine.Action
import RemoteDebug.Proofs.Table
import Mathlib.Logic.Function.Basic

/-! What the rules of a session look at: the calls, the registry, of each tab its id,
whether it is attached, its listener and its lock, and the tables of awaited
replies without their values.

A table stands on a desk: that of the session's service handler, that of the
separate one, or that of a tab. `view` shows all of it, and for each operation
one equation says how the view changes; the rest of the view stays. -/
namespace RemoteDebug.Engine
open Protocol Wire

inductive Desk where
  | session
  | separate
  | tab (t : Instance)
  deriving DecidableEq

/-- Where the waiters of a request have their place. -/
def Request.desk : Request → Desk
  | .attach t _ | .detach t => .tab t
  | .service .. => .separate
  | _ => .session

/-- What only one call at a time may use. -/
inductive Need where
  | connection
  | tab (t : Instance)
  deriving DecidableEq

def Request.need? : Request → Option Need
  | .connect => some .connection
  | .attach t _ | .detach t => some (.tab t)
  | _ => none

structure View where
  calls : List Call
  registry : List (TabId × Instance)
  ident : Instance → Option TabId
  attached : Instance → Bool
  listener : Instance → Option Listener
  lock : Need → List CallId
  board : Desk → Pending Unit

namespace View

def setBoard (v : View) (d : Desk) (p : Pending Unit) : View :=
  { v with board := Function.update v.board d p }

def setAttached (v : View) (t : Instance) (a : Bool) : View :=
  { v with attached := Function.update v.attached t a }

def setListener (v : View) (t : Instance) (l : Listener) : View :=
  { v with listener := Function.update v.listener t (some l) }

def setPoint (v : View) (id : CallId) (p : Point) : View :=
  { v with calls := v.calls.map fun c => if c.id = id then { c with point := p } else c }

def changeLock (v : View) (r : Request) (f : List CallId → List CallId) : View :=
  match r.need? with
  | some n => { v with lock := Function.update v.lock n (f (v.lock n)) }
  | none => v

def retire (v : View) (c : Call) : View :=
  { v with calls := v.calls.filter (·.id != c.id) }.changeLock c.request (·.filter (· != c.id))

/-- The ticket that a request gets next. -/
def nextTicket (v : View) (r : Request) : Ticket := (v.board r.desk).nextTicket

def enter (v : View) (c : Call) (deadline : Nat) : View :=
  (v.setBoard c.request.desk ((v.board c.request.desk).register c.request.command).2).setPoint c.id
    (.awaiting (v.nextTicket c.request) deadline)

def quit (v : View) (c : Call) (ticket : Ticket) : View :=
  (v.setBoard c.request.desk ((v.board c.request.desk).leave c.request.command ticket)).retire c

/-- A new instance comes into being and is registered. -/
def create (v : View) (id : TabId) (t : Instance) : View :=
  { v with
    registry := assign id t v.registry
    ident := Function.update v.ident t (some id) }

/-- A tab without its attachment. -/
def cutOff (v : View) (t : Instance) : View :=
  (v.setAttached t false).setBoard (.tab t) (v.board (.tab t)).failAll

end View

namespace State

def board (s : State) : Desk → Pending Unit
  | .session => (s.service.getD {}).blank
  | .separate => s.separate.blank
  | .tab t => (s.tabTable t).blank

/-- The calls that hold or wait for something, the holder first. -/
def queueFor (s : State) : Need → List CallId
  | .connection => s.connectLock
  | .tab t => ((s.tab? t).map (·.lock)).getD []

def view (s : State) : View where
  calls := s.calls
  registry := s.registry
  ident t := (s.tab? t).map (·.id)
  attached := s.isAttached
  listener t := (s.tab? t).bind (·.listener)
  lock := s.queueFor
  board := s.board

/-- Adds entries to the journal. -/
def note (s : State) (es : List Entry) : State := { s with journal := s.journal ++ es }

@[simp] theorem note_nil (s : State) : s.note [] = s := by simp [note]

theorem note_note (s : State) (a b : List Entry) : (s.note a).note b = s.note (a ++ b) := by
  simp [note]

@[simp] theorem view_note (s : State) (es : List Entry) : (s.note es).view = s.view := rfl

theorem record_eq (s : State) (e : Entry) : s.record e = s.note [e] := rfl

theorem log_eq (s : State) (n : Notice) : s.log n = s.note [.notice n] := rfl

theorem logged_eq (s : State) (n : Option Notice) :
    s.logged n = s.note (n.toList.map .notice) := by
  cases n with
  | none => exact (note_nil s).symm
  | some n => rfl

/-- What the recorded listener of a tab is told, if there is one. -/
def told (s : State) (t : Instance) (what : Listener → TabEvent) : List Entry :=
  match (s.tab? t).bind (·.listener) with
  | some l => [.event t (what l)]
  | none => []

theorem tell_eq (s : State) (t : Instance) (what : Listener → TabEvent) :
    s.tell t what = s.note (s.told t what) := by
  unfold tell told
  cases (s.tab? t).bind (·.listener) with
  | none => exact (note_nil s).symm
  | some l => rfl

/-- What the collaborators of a tab are told when it is detached. -/
def farewell (s : State) (t : Instance) : List Entry :=
  .event t .contextDetached :: s.told t .disconnected

theorem announceDetached_eq (s : State) (t : Instance) :
    s.announceDetached t = s.note (s.farewell t) := by
  unfold announceDetached farewell
  rw [tell_eq, record_eq]
  simp [note, told, tab?]

theorem logRejected_eq (s : State) (t : Instance) (h : Handshake) (code : ResultCode) :
    s.logRejected t h code =
      s.note (((s.tab? t).map fun tab => Entry.notice (.rejected h code tab.id)).toList) := by
  unfold logRejected
  split
  · next h => rw [h]; rfl
  · next h => rw [h]; exact (note_nil s).symm

/-! ### Tabs -/

theorem tab?_modifyTab (s : State) (t u : Instance) (f : Tab → Tab) :
    (s.modifyTab t f).tab? u = if t = u then (s.tab? u).map f else s.tab? u := by
  show (s.tabs.modify t f)[u]? = _
  rw [List.getElem?_modify]
  split
  · rfl
  · cases hu : s.tab? u <;> simp_all [tab?]

theorem map_tab?_modifyTab {β : Type} (s : State) (t u : Instance) (f : Tab → Tab) (g : Tab → β)
    (h : ∀ x, g (f x) = g x) : ((s.modifyTab t f).tab? u).map g = (s.tab? u).map g := by
  rw [tab?_modifyTab]
  split
  · rw [Option.map_map]
    congr 1
    funext x
    exact h x
  · rfl

/-- What a change of a tab leaves as it was, read off its fields. -/
structure Keeps (f : Tab → Tab) : Prop where
  id : ∀ x, (f x).id = x.id
  attached : ∀ x, (f x).attached = x.attached
  listener : ∀ x, (f x).listener = x.listener
  lock : ∀ x, (f x).lock = x.lock
  pending : ∀ x, (f x).pending = x.pending

theorem isAttached_eq (s : State) (t : Instance) :
    s.isAttached t = ((s.tab? t).map (·.attached)).getD false := by
  unfold isAttached
  cases s.tab? t <;> rfl

theorem tabTable_eq (s : State) (t : Instance) :
    s.tabTable t = ((s.tab? t).map (·.pending)).getD {} := rfl

theorem listener_eq (s : State) (t : Instance) :
    s.view.listener t = ((s.tab? t).map (·.listener)).join := by
  show (s.tab? t).bind _ = _
  cases s.tab? t <;> rfl

/-- Two states whose tabs agree in what the view shows, and that agree in the rest of it. -/
theorem view_eq {s s' : State} (calls : s'.calls = s.calls) (registry : s'.registry = s.registry)
    (connectLock : s'.connectLock = s.connectLock) (service : s'.service = s.service)
    (separate : s'.separate = s.separate)
    (tabs : ∀ t, (s'.tab? t).map (fun x => (x.id, x.attached, x.listener, x.lock, x.pending)) =
      (s.tab? t).map fun x => (x.id, x.attached, x.listener, x.lock, x.pending)) :
    s'.view = s.view := by
  have part : ∀ {β : Type}
      (g : TabId × Bool × Option Listener × List CallId × Pending DebuggerReply → β)
      (t : Instance), (s'.tab? t).map (fun x => g (x.id, x.attached, x.listener, x.lock, x.pending)) =
        (s.tab? t).map fun x => g (x.id, x.attached, x.listener, x.lock, x.pending) := by
    intro β g t
    have := congrArg (Option.map g) (tabs t)
    simpa [Option.map_map, Function.comp_def] using this
  unfold view
  congr 1
  · funext t
    exact part (·.1) t
  · funext t
    rw [isAttached_eq, isAttached_eq, part (·.2.1) t]
  · funext t
    show s'.view.listener t = s.view.listener t
    rw [listener_eq, listener_eq, part (·.2.2.1) t]
  · funext n
    cases n with
    | connection => exact connectLock
    | tab t => exact congrArg (·.getD []) (part (·.2.2.2.1) t)
  · funext d
    cases d with
    | session => simp only [board, service]
    | separate => simp only [board, separate]
    | tab t => simp only [board, tabTable_eq, part (·.2.2.2.2) t]

theorem view_modifyTab_keeps (s : State) (t : Instance) {f : Tab → Tab} (h : Keeps f) :
    (s.modifyTab t f).view = s.view := by
  refine @view_eq s (s.modifyTab t f) rfl rfl rfl rfl rfl fun u => ?_
  apply map_tab?_modifyTab s t u f
  intro x
  rw [h.id, h.attached, h.listener, h.lock, h.pending]

@[simp] theorem view_unmark (s : State) (r : Request) : (s.unmark r).view = s.view := by
  cases r with
  | attach t l =>
    exact view_modifyTab_keeps s t
      ⟨fun _ => rfl, fun _ => rfl, fun _ => rfl, fun _ => rfl, fun _ => rfl⟩
  | _ => rfl

theorem isSome_ident (s : State) (t : Instance) : (s.view.ident t).isSome = (s.tab? t).isSome := by
  show ((s.tab? t).map _).isSome = _
  rw [Option.isSome_map]

/-- One field of each tab, as it is after a change of one tab. -/
theorem field_modifyTab {β : Type} (s : State) (t u : Instance) (f : Tab → Tab) (g : Tab → β) :
    ((s.modifyTab t f).tab? u).map g =
      if t = u then (s.tab? u).map (fun x => g (f x)) else (s.tab? u).map g := by
  rw [tab?_modifyTab]
  split
  · rw [Option.map_map]
    rfl
  · rfl

theorem isAttached_modifyTab_of_keeps (s : State) (t : Instance) (f : Tab → Tab)
    (h : ∀ x, (f x).attached = x.attached) : (s.modifyTab t f).isAttached = s.isAttached := by
  funext u
  rw [isAttached_eq, isAttached_eq, map_tab?_modifyTab s t u f _ h]

theorem listener_modifyTab_of_keeps (s : State) (t : Instance) (f : Tab → Tab)
    (h : ∀ x, (f x).listener = x.listener) : (s.modifyTab t f).view.listener = s.view.listener := by
  funext u
  rw [listener_eq, listener_eq, map_tab?_modifyTab s t u f _ h]

theorem queueFor_modifyTab_of_keeps (s : State) (t : Instance) (f : Tab → Tab)
    (h : ∀ x, (f x).lock = x.lock) : (s.modifyTab t f).queueFor = s.queueFor := by
  funext n
  cases n with
  | connection => rfl
  | tab u => exact congrArg (·.getD []) (map_tab?_modifyTab s t u f _ h)

theorem board_modifyTab_of_keeps (s : State) (t : Instance) (f : Tab → Tab)
    (h : ∀ x, (f x).pending = x.pending) : (s.modifyTab t f).board = s.board := by
  funext d
  cases d with
  | tab u => simp only [board, tabTable_eq, map_tab?_modifyTab s t u f _ h]
  | _ => rfl

/-- How a change of one tab shows in the view, field by field. -/
theorem view_modifyTab (s : State) (t : Instance) (f : Tab → Tab) {attached : Instance → Bool}
    {listener : Instance → Option Listener} {lock : Need → List CallId}
    {board : Desk → Pending Unit} (hid : ∀ x, (f x).id = x.id)
    (hattached : (s.modifyTab t f).isAttached = attached)
    (hlistener : (s.modifyTab t f).view.listener = listener)
    (hlock : (s.modifyTab t f).queueFor = lock) (hboard : (s.modifyTab t f).board = board) :
    (s.modifyTab t f).view = { s.view with attached, listener, lock, board } := by
  have hident : (s.modifyTab t f).view.ident = s.view.ident := by
    funext u
    exact map_tab?_modifyTab s t u f _ hid
  rw [← hattached, ← hlistener, ← hlock, ← hboard]
  show _ = { (s.modifyTab t f).view with calls := s.calls, registry := s.registry, ident := s.view.ident }
  rw [← hident]
  rfl

/-! ### Operations on tabs -/

theorem view_setAttached (s : State) (t : Instance) (h : (s.tab? t).isSome) :
    (s.modifyTab t fun tab => { tab with attached := true }).view =
      s.view.setAttached t true := by
  refine view_modifyTab s t _ (fun _ => rfl) ?_ (listener_modifyTab_of_keeps s t _ fun _ => rfl)
    (queueFor_modifyTab_of_keeps s t _ fun _ => rfl) (board_modifyTab_of_keeps s t _ fun _ => rfl)
  funext u
  show _ = Function.update s.isAttached t true u
  rw [isAttached_eq, field_modifyTab]
  by_cases hu : t = u
  · subst hu
    obtain ⟨tab, htab⟩ := Option.isSome_iff_exists.mp h
    simp [htab]
  · rw [if_neg hu, Function.update_of_ne (Ne.symm hu), isAttached_eq]

theorem view_mark (s : State) (t : Instance) (l : Listener) (h : (s.tab? t).isSome) :
    (s.mark t l).view = s.view.setListener t l := by
  refine view_modifyTab s t _ (fun _ => rfl) (isAttached_modifyTab_of_keeps s t _ fun _ => rfl) ?_
    (queueFor_modifyTab_of_keeps s t _ fun _ => rfl) (board_modifyTab_of_keeps s t _ fun _ => rfl)
  funext u
  rw [listener_eq, field_modifyTab]
  by_cases hu : t = u
  · subst hu
    obtain ⟨tab, htab⟩ := Option.isSome_iff_exists.mp h
    simp [htab]
  · rw [if_neg hu, Function.update_of_ne (Ne.symm hu), listener_eq]

theorem view_cutOff (s : State) (t : Instance) :
    (s.modifyTab t Tab.cutOff).view = s.view.cutOff t := by
  refine view_modifyTab s t _ (fun _ => rfl) ?_ (listener_modifyTab_of_keeps s t _ fun _ => rfl)
    (queueFor_modifyTab_of_keeps s t _ fun _ => rfl) ?_
  · funext u
    show _ = Function.update s.isAttached t false u
    rw [isAttached_eq, field_modifyTab]
    by_cases hu : t = u
    · subst hu
      cases s.tab? t <;> simp [Tab.cutOff]
    · rw [if_neg hu, Function.update_of_ne (Ne.symm hu), isAttached_eq]
  · funext d
    cases d with
    | tab u =>
      show ((s.modifyTab t Tab.cutOff).tabTable u).blank = _
      rw [tabTable_eq, field_modifyTab]
      by_cases hu : t = u
      · subst hu
        rw [if_pos rfl, Function.update_self]
        show _ = (s.tabTable t).blank.failAll
        rw [tabTable_eq, ← Pending.blank_failAll]
        cases s.tab? t <;> rfl
      · rw [if_neg hu, Function.update_of_ne (by simpa using Ne.symm hu)]
        rfl
    | session => exact (Function.update_of_ne (by simp) _ _).symm
    | separate => exact (Function.update_of_ne (by simp) _ _).symm

/-! ### Operations on tables -/

theorem board_setTabTable (s : State) (t : Instance) (p : Pending DebuggerReply)
    (h : (s.tab? t).isSome) :
    (s.setTabTable t p).board = Function.update s.board (.tab t) p.blank := by
  funext d
  cases d with
  | tab u =>
    show ((s.setTabTable t p).tabTable u).blank = _
    unfold setTabTable
    rw [tabTable_eq, field_modifyTab]
    by_cases hu : t = u
    · subst hu
      obtain ⟨tab, htab⟩ := Option.isSome_iff_exists.mp h
      simp [htab]
    · rw [if_neg hu, Function.update_of_ne (by simpa using Ne.symm hu)]
      rfl
  | session => exact (Function.update_of_ne (by simp) _ _).symm
  | separate => exact (Function.update_of_ne (by simp) _ _).symm

theorem view_setTabTable (s : State) (t : Instance) (p : Pending DebuggerReply)
    (h : (s.tab? t).isSome) :
    (s.setTabTable t p).view = s.view.setBoard (.tab t) p.blank :=
  view_modifyTab s t _ (fun _ => rfl) (isAttached_modifyTab_of_keeps s t _ fun _ => rfl)
    (listener_modifyTab_of_keeps s t _ fun _ => rfl) (queueFor_modifyTab_of_keeps s t _ fun _ => rfl)
    (board_setTabTable s t p h)

theorem view_setServiceTable (s : State) (r : Request) (p : Pending ServiceResponse)
    (h : r.tab? = none) :
    (s.setServiceTable r p).view = s.view.setBoard r.desk p.blank := by
  have hb : (s.setServiceTable r p).board = Function.update s.board r.desk p.blank := by
    funext d
    cases r <;> simp only [Request.tab?, reduceCtorEq] at h <;> cases d <;>
      simp [setServiceTable, Request.desk, board, Function.update, tabTable, tab?]
  show _ = { s.view with board := Function.update s.board r.desk p.blank }
  rw [← hb]
  cases r <;> rfl

/-- The table of a request as it stands on its desk. -/
theorem board_desk (s : State) (r : Request) :
    s.board r.desk = match r.tab? with
      | some t => (s.tabTable t).blank
      | none => (s.serviceTable r).blank := by
  cases r <;> rfl

/-- The tab of a request exists, if the request is about one. -/
def hasTab (s : State) (r : Request) : Prop := ∀ t, r.tab? = some t → (s.tab? t).isSome

theorem nextTicket_eq (s : State) (r : Request) : s.nextTicket r = s.view.nextTicket r := by
  show _ = (s.board r.desk).nextTicket
  rw [board_desk]
  unfold nextTicket
  cases r.tab? <;> rfl

theorem desk_of_tab? {r : Request} {t : Instance} (h : r.tab? = some t) : r.desk = .tab t := by
  cases r <;> simp_all [Request.tab?, Request.desk]

theorem view_join (s : State) (r : Request) (h : s.hasTab r) :
    (s.join r).view = s.view.setBoard r.desk ((s.view.board r.desk).register r.command).2 := by
  show _ = s.view.setBoard r.desk ((s.board r.desk).register r.command).2
  unfold join
  rw [board_desk]
  cases hr : r.tab? with
  | some t =>
    rw [← Pending.blank_register, desk_of_tab? hr]
    exact view_setTabTable s t _ (h t hr)
  | none =>
    rw [← Pending.blank_register]
    exact view_setServiceTable s r _ hr

theorem view_leave (s : State) (r : Request) (ticket : Ticket) (h : s.hasTab r) :
    (s.leave r ticket).view = s.view.setBoard r.desk ((s.view.board r.desk).leave r.command ticket) := by
  show _ = s.view.setBoard r.desk ((s.board r.desk).leave r.command ticket)
  unfold leave
  rw [board_desk]
  cases hr : r.tab? with
  | some t =>
    rw [← Pending.blank_leave, desk_of_tab? hr]
    exact view_setTabTable s t _ (h t hr)
  | none =>
    rw [← Pending.blank_leave]
    exact view_setServiceTable s r _ hr

/-! ### Operations on calls -/

theorem view_setPoint (s : State) (id : CallId) (p : Point) :
    (s.setPoint id p).view = s.view.setPoint id p := rfl

theorem view_enter (s : State) (c : Call) (h : s.hasTab c.request) :
    (s.enter c).view = s.view.enter c (s.deadlineOf c.request) := by
  unfold enter
  rw [view_setPoint, view_join s c.request h, nextTicket_eq]
  rfl

theorem Request.need?_of_tab? {r : Request} {t : Instance} (h : r.tab? = some t) :
    r.need? = some (.tab t) := by
  cases r <;> simp_all [Request.tab?, Request.need?]

theorem changeLock_of_tab? (s : State) {r : Request} {t : Instance} (h : r.tab? = some t)
    (f : List CallId → List CallId) :
    s.changeLock r f = s.modifyTab t fun tab => { tab with lock := f tab.lock } := by
  cases r <;> simp only [Request.tab?, reduceCtorEq, Option.some.injEq] at h <;> subst h <;> rfl

/-- A tab that does not exist has no queue to change. -/
theorem view_changeLock (s : State) (r : Request) (f : List CallId → List CallId)
    (h : s.hasTab r ∨ f [] = []) : (s.changeLock r f).view = s.view.changeLock r f := by
  cases hr : r.tab? with
  | none =>
    cases r with
    | connect =>
      have hq : (s.changeLock .connect f).queueFor =
          Function.update s.queueFor .connection (f (s.queueFor .connection)) := by
        funext n
        cases n with
        | connection =>
          rw [Function.update_self]
          rfl
        | tab t =>
          rw [Function.update_of_ne (by simp)]
          rfl
      show { s.view with lock := (s.changeLock .connect f).queueFor } = _
      rw [hq]
      rfl
    | attach t l => cases hr
    | detach t => cases hr
    | _ => rfl
  | some t =>
    rw [changeLock_of_tab? s hr]
    unfold View.changeLock
    rw [Request.need?_of_tab? hr]
    refine view_modifyTab s t _ (fun _ => rfl) (isAttached_modifyTab_of_keeps s t _ fun _ => rfl)
      (listener_modifyTab_of_keeps s t _ fun _ => rfl) ?_ (board_modifyTab_of_keeps s t _ fun _ => rfl)
    funext n
    cases n with
    | connection => exact (Function.update_of_ne (by simp) _ _).symm
    | tab u =>
      show (((s.modifyTab t _).tab? u).map (·.lock)).getD [] = _
      rw [field_modifyTab]
      by_cases hu : t = u
      · subst hu
        rw [if_pos rfl, Function.update_self]
        show _ = f (((s.tab? t).map (·.lock)).getD [])
        cases ht : s.tab? t with
        | some tab => rfl
        | none =>
          rcases h with h | h
          · exact absurd (h t hr) (by simp [ht])
          · exact h.symm
      · rw [if_neg hu, Function.update_of_ne (by simpa using Ne.symm hu)]
        rfl

/-- A call holds what its request needs if it is the first in the queue for it. -/
theorem holds_iff (s : State) (c : Call) (h : s.hasTab c.request) :
    s.holds c = true ↔ ∀ n, c.request.need? = some n → (s.queueFor n).head? = some c.id := by
  have eq : ∀ {q : List CallId}, (q.head? == some c.id) = true ↔ q.head? = some c.id := beq_iff_eq
  unfold holds
  cases hr : c.request.tab? with
  | none => cases hc : c.request <;> simp_all [Request.tab?, Request.need?, lockOf, queueFor]
  | some t =>
    rw [Request.need?_of_tab? hr]
    obtain ⟨tab, htab⟩ := Option.isSome_iff_exists.mp (h t hr)
    have hl : s.lockOf c.request = some tab.lock := by
      cases hc : c.request <;> simp_all [Request.tab?, lockOf]
    rw [hl]
    simp [queueFor, htab]

theorem view_retire (s : State) (c : Call) : (s.retire c).view = s.view.retire c := by
  unfold retire
  rw [view_changeLock _ _ _ (Or.inr rfl)]
  rfl

theorem view_quit (s : State) (c : Call) (ticket : Ticket) (h : s.hasTab c.request) :
    (s.quit c ticket).view = s.view.quit c ticket := by
  unfold quit
  rw [view_retire, view_unmark, view_leave s c.request ticket h]
  rfl

/-! ### The connection and the registry -/

/-- What is recorded of a message that is to be sent. -/
def posted (asker : Option CallId) (m : Message) : Except TransportError Unit → List Entry
  | .ok () => [.sent asker m]
  | .error _ => []

theorem send_eq (s : State) (asker : Option CallId) (m : Message) :
    s.send asker m =
      (({ s with connection := (s.connection.send m).1 } : State).note
        (posted asker m (s.connection.send m).2), (s.connection.send m).2) := by
  unfold send
  cases h : s.connection.send m with
  | mk connection result =>
    cases result with
    | ok u => rfl
    | error e => simp [note, posted]

theorem view_send (s : State) (asker : Option CallId) (m : Message) :
    (s.send asker m).1.view = s.view := by
  rw [send_eq]
  rfl

theorem view_ensureService (s : State) : s.ensureService.view = s.view := by
  unfold ensureService
  split
  · rfl
  · next h =>
    unfold view
    congr 1
    funext d
    cases d with
    | session => simp [board, h]
    | _ => rfl

theorem tab?_create (s : State) (e : TabEntry) (t : Instance) :
    (s.create e).1.tab? t =
      if t = s.tabs.length then some { id := e.id, url := e.url } else s.tab? t := by
  show (s.tabs ++ [({ id := e.id, url := e.url } : Tab)])[t]? = _
  by_cases ht : t = s.tabs.length
  · simp [ht]
  · rw [if_neg ht, List.getElem?_append]
    split
    · rfl
    · next hlt =>
      have hle : s.tabs.length ≤ t := Nat.le_of_not_lt hlt
      have hpos : ¬ t - s.tabs.length = 0 := fun h =>
        ht (Nat.le_antisymm (Nat.le_of_sub_eq_zero h) hle)
      rw [List.getElem?_singleton, if_neg hpos]
      exact (List.getElem?_eq_none hle).symm

theorem tab?_length (s : State) : s.tab? s.tabs.length = none := List.getElem?_eq_none (Nat.le_refl _)

theorem view_create (s : State) (e : TabEntry) :
    (s.create e).1.view = s.view.create e.id s.tabs.length := by
  have new : ∀ t, t ≠ s.tabs.length → (s.create e).1.tab? t = s.tab? t := fun t ht => by
    rw [tab?_create, if_neg ht]
  have fresh : (s.create e).1.tab? s.tabs.length = some { id := e.id, url := e.url } := by
    rw [tab?_create, if_pos rfl]
  have hident : (s.create e).1.view.ident = Function.update s.view.ident s.tabs.length (some e.id) := by
    funext t
    show ((s.create e).1.tab? t).map (·.id) = _
    by_cases ht : t = s.tabs.length
    · rw [ht, fresh, Function.update_self]
      rfl
    · rw [new t ht, Function.update_of_ne ht]
      rfl
  have hattached : (s.create e).1.isAttached = s.isAttached := by
    funext t
    by_cases ht : t = s.tabs.length
    · simp only [isAttached, ht, fresh, tab?_length]
      rfl
    · simp only [isAttached, new t ht]
  have hlistener : (s.create e).1.view.listener = s.view.listener := by
    funext t
    show ((s.create e).1.tab? t).bind _ = (s.tab? t).bind _
    by_cases ht : t = s.tabs.length
    · simp [ht, fresh, tab?_length]
    · rw [new t ht]
  have hlock : (s.create e).1.queueFor = s.queueFor := by
    funext n
    cases n with
    | connection => rfl
    | tab t =>
      show (((s.create e).1.tab? t).map (·.lock)).getD [] = ((s.tab? t).map (·.lock)).getD []
      by_cases ht : t = s.tabs.length
      · simp [ht, fresh, tab?_length]
      · rw [new t ht]
  have hboard : (s.create e).1.board = s.board := by
    funext d
    cases d with
    | tab t =>
      show ((s.create e).1.tabTable t).blank = (s.tabTable t).blank
      by_cases ht : t = s.tabs.length
      · simp [tabTable, ht, fresh, tab?_length]
      · simp only [tabTable, new t ht]
    | _ => rfl
  calc (s.create e).1.view
      = { s.view with
          registry := assign e.id s.tabs.length s.registry
          ident := (s.create e).1.view.ident
          attached := (s.create e).1.isAttached
          listener := (s.create e).1.view.listener
          lock := (s.create e).1.queueFor
          board := (s.create e).1.board } := rfl
    _ = s.view.create e.id s.tabs.length := by
      rw [hident, hattached, hlistener, hlock, hboard]
      rfl

end State
end RemoteDebug.Engine
