import RemoteDebug.Engine.Action
import RemoteDebug.Proofs.Course

/-! Occasions for an end.

Some actions end an attachment, which can end others and close the connection:
`occasion?` says which, from what state, and what is noted when all is done. A
message that ends nothing brings a reply at most (`Brings`). -/
namespace RemoteDebug.Engine
open Protocol Wire

/-- What ends. -/
inductive Trigger where
  /-- The connection. -/
  | close
  /-- The attachment of an instance. -/
  | detached (tab : Instance)
  /-- The tab of an id. -/
  | terminated (id : TabId)
  deriving DecidableEq

structure Occasion where
  /-- The state by then. -/
  before : State
  trigger : Trigger
  /-- What is noted in the end. -/
  after : List Entry

/-- The collaborators of a tab hear that it is detached, or the connection is closed. -/
def Entry.isParting : Entry → Bool
  | .connectionClosed | .event _ .contextDetached | .event _ (.disconnected _) => true
  | _ => false

/-- What can be noted of a message that comes in at a desk: that it is out of place, or at a tab what its
debugger reports. -/
def Desk.notes : Desk → Entry → Bool
  | _, .notice _ => true
  | .tab _, .event _ (.contextReply _) | .tab _, .event _ (.navigated ..) | .tab _, .event _ (.closed _) => true
  | _, _ => false

namespace State

def fire (s : State) : Trigger → State
  | .close => s.shutDown
  | .detached t => s.detached t
  | .terminated id => s.terminated id

/-- Nothing is noted but entries of a kind. -/
def Notes (kind : Entry → Bool) (s s' : State) : Prop :=
  ∃ news, s'.journal = s.journal ++ news ∧ ∀ e ∈ news, kind e = true

theorem Notes.of_eq {kind : Entry → Bool} {s s' : State} (h : s'.journal = s.journal) : Notes kind s s' :=
  ⟨[], h.trans (List.append_nil _).symm, fun _ he => by cases he⟩

theorem Notes.record {kind : Entry → Bool} (s : State) {e : Entry} (h : kind e = true) :
    Notes kind s (s.record e) :=
  ⟨[e], rfl, fun _ hx => List.mem_singleton.mp hx ▸ h⟩

theorem Notes.imp {kind kind' : Entry → Bool} {s s' : State} (h : Notes kind s s')
    (imp : ∀ e, kind e = true → kind' e = true) : Notes kind' s s' := by
  obtain ⟨news, hj, hn⟩ := h
  exact ⟨news, hj, fun e he => imp e (hn e he)⟩

theorem Notes.trans {kind : Entry → Bool} {s s' s'' : State} (h : Notes kind s s')
    (h' : Notes kind s' s'') : Notes kind s s'' := by
  obtain ⟨news, hj, hn⟩ := h
  obtain ⟨news', hj', hn'⟩ := h'
  exact ⟨news ++ news', by rw [hj', hj, List.append_assoc],
    fun e he => (List.mem_append.mp he).elim (hn e) (hn' e)⟩

instance (kind : Entry → Bool) : Std.Refl (Notes kind) := ⟨fun _ => .of_eq rfl⟩

instance (kind : Entry → Bool) : IsTrans State (Notes kind) := ⟨fun _ _ _ => .trans⟩

/-- What every duty keeps holds of all that the duties come to. -/
theorem unwind_of_duties {R : State → State → Prop} [Std.Refl R] [IsTrans State R]
    (performed : ∀ x d, R x (x.perform d).1) (s : State) (duties : List Duty) : R s (s.unwind duties) :=
  unwind_induction (P := fun x _ => R s x) (fun x d _ h => IsTrans.trans _ _ _ h (performed x d)) s duties
    (Std.Refl.refl s)

theorem fire_of_duties {R : State → State → Prop} [Std.Refl R] [IsTrans State R]
    (performed : ∀ x d, R x (x.perform d).1) (closed : ∀ x, R x x.close.1) (s : State) (k : Trigger) :
    R s (s.fire k) := by
  cases k with
  | close => exact IsTrans.trans _ _ _ (closed s) (unwind_of_duties performed _ _)
  | detached t => exact unwind_of_duties performed s _
  | terminated id => exact unwind_of_duties performed s _

/-- Nothing is noted but that tabs are detached, and that the connection is closed. -/
def Parts (s s' : State) : Prop := Notes Entry.isParting s s'

theorem Parts.close (s : State) : Parts s s.close.1 := by
  rcases journal_close s with hj | hj
  · exact .of_eq hj
  · refine ⟨_, hj, fun e he => ?_⟩
    rw [List.mem_singleton.mp he]
    rfl

theorem Parts.perform (s : State) (d : Duty) : Parts s (s.perform d).1 := by
  cases d with
  | detach t =>
    rcases journal_detach s t with hj | ⟨x, hj⟩
    · exact .of_eq hj
    · refine ⟨_, hj, fun e he => ?_⟩
      unfold State.farewell told at he
      split at he <;> simp only [List.mem_cons, List.not_mem_nil, or_false] at he
      · rcases he with rfl | rfl <;> rfl
      · rw [he]
        rfl
  | terminate id =>
    rw [registry_terminate]
    exact .of_eq rfl
  | closeIfIdle =>
    rw [perform_closeIfIdle]
    split
    · exact .of_eq rfl
    · exact .close s

theorem Parts.unwind (s : State) (duties : List Duty) : Parts s (s.unwind duties) :=
  unwind_of_duties (R := Notes Entry.isParting) Parts.perform s duties

/-- A tab is told by its debugger that it is closed. -/
def closing? (s : State) (t : Instance) (m : Message) : Option Occasion :=
  match s.tab? t with
  | none => none
  | some _ =>
    match DebuggerReply.ofJson m.content with
    | .error _ => none
    | .ok reply =>
      match reply.kind with
      | .closed => some ⟨s.tell t .closed, .detached t, []⟩
      | _ => none

def delivering? (s : State) (m : Message) : Option Occasion :=
  if s.listens then
    match s.recipient m with
    | .tab t => s.closing? t m
    | _ => none
  else none

/-- A detach is granted. -/
def ousting? (s : State) (c : Call) : Option Occasion :=
  match c.point with
  | .awaiting k _ =>
    (s.ousts? c k).map fun t =>
      ⟨s.quit c k, .detached t, [.finished c.id c.request (.handshake (.ok ()))]⟩
  | _ => none

def terminating? (s : State) (id : TabId) : Option Occasion :=
  if s.alive then some ⟨s, .terminated id, []⟩ else none

def occasion? (s : State) : Action → Option Occasion
  | .close => some ⟨s, .close, []⟩
  | .terminate id => s.terminating? id
  | .tabTerminated t => (s.tab? t).bind (s.terminating? ·.id)
  | .detached t => some ⟨s, .detached t, []⟩
  | .handle t m => s.closing? t m
  | .deliver m => s.delivering? m
  | .receive =>
    match s.connection.inbound with
    | [] => none
    | m :: rest => { s with connection := { s.connection with inbound := rest } }.delivering? m
  | .resume id => (s.call? id).bind s.ousting?
  | _ => none

variable {s s' : State} {o : Occasion}

theorem moves_fire (s : State) (k : Trigger) : Moves s (s.fire k) := by
  cases k with
  | close => exact .trans (.single .closed) (moves_unwind _ _)
  | detached t => exact moves_unwind _ _
  | terminated id => exact moves_unwind _ _

/-! ### Messages -/

theorem tabMessage_of_closing (t : Instance) (m : Message) (h : s.closing? t m = some o) :
    s.tabMessage t m = (o.before.fire o.trigger).note o.after := by
  unfold closing? at h
  unfold tabMessage
  cases ht : s.tab? t with
  | none =>
    rw [ht] at h
    cases h
  | some tab =>
    rw [ht] at h
    cases hr : DebuggerReply.ofJson m.content with
    | error cause =>
      rw [hr] at h
      cases h
    | ok reply =>
      rw [hr] at h
      dsimp only at h ⊢
      cases hk : reply.kind with
      | closed =>
        rw [hk] at h
        obtain rfl := Option.some.inj h
        exact (note_nil _).symm
      | _ =>
        rw [hk] at h
        cases h

/-- The command that a message for a tab answers. -/
def tabReply? (m : Message) : Option String :=
  match DebuggerReply.ofJson m.content with
  | .error _ => none
  | .ok reply =>
    match reply.kind with
    | .attach | .detach => some reply.command
    | _ => none

/-- The command that a message for a service handler answers. -/
def serviceReply? (m : Message) : Option String :=
  match ServiceResponse.ofJson m.content with
  | .error _ => none
  | .ok response => some response.command

theorem plain_of_notes {d : Desk} {es : List Entry} (h : ∀ e ∈ es, d.notes e = true) :
    ∀ e ∈ es, e.isPlain = true := by
  intro e he
  have hn := h e he
  unfold Desk.notes at hn
  split at hn
  · rfl
  · rfl
  · rfl
  · rfl
  · cases hn

/-- A message leads to a state by the reply that it is at a desk, if it is one, and by what is noted of
it. -/
def Brings (s : State) (d : Desk) (reply : Option String) (s' : State) : Prop :=
  ∃ s₁ es, (∀ e ∈ es, d.notes e = true) ∧ s' = s₁.note es ∧
    match reply with
    | some command => Answer s d command s₁
    | none => s₁ = s

theorem Brings.of_note {d : Desk} {es : List Entry} (noted : ∀ e ∈ es, d.notes e = true) :
    Brings s d none (s.note es) :=
  ⟨s, es, noted, rfl, rfl⟩

theorem told_kind {kind : Entry → Bool} (s : State) (t : Instance) {what : Listener → TabEvent}
    (h : ∀ l, kind (.event t (what l)) = true) : ∀ e ∈ s.told t what, kind e = true := by
  intro e he
  unfold told at he
  split at he
  · rw [List.mem_singleton.mp he]
    exact h _
  · cases he

theorem singleton_kind {kind : Entry → Bool} {e : Entry} (h : kind e = true) :
    ∀ x ∈ [e], kind x = true := by
  intro x hx
  rw [List.mem_singleton.mp hx]
  exact h

theorem notices_kind {kind : Entry → Bool} (h : ∀ n, kind (.notice n) = true) (n : Option Notice) :
    ∀ e ∈ n.toList.map Entry.notice, kind e = true := by
  intro e he
  obtain ⟨n, _, rfl⟩ := List.mem_map.mp he
  exact h n

theorem brings_handshakeReply {t : Instance} {tab : Tab} (ht : s.tab? t = some tab)
    (reply : DebuggerReply) :
    Brings s (.tab t) (some reply.command) (s.handshakeReply t tab reply) := by
  have htable : s.tabTable t = tab.pending := by
    unfold tabTable
    rw [ht]
    rfl
  have ha := Answer.tab (s := s) t (by rw [ht]; rfl) reply.command reply
  rw [htable] at ha
  unfold handshakeReply
  split
  · next p hp =>
    rw [hp] at ha
    exact ⟨_, [], (fun _ he => by cases he), (note_nil _).symm, ha⟩
  · next p hp =>
    rw [hp] at ha
    exact ⟨_, _, singleton_kind rfl, log_eq _ _, ha⟩

theorem brings_tabMessage {t : Instance} {m : Message} (known : (s.tab? t).isSome = true)
    (h : s.closing? t m = none) : Brings s (.tab t) (tabReply? m) (s.tabMessage t m) := by
  obtain ⟨tab, ht⟩ := Option.isSome_iff_exists.mp known
  unfold closing? at h
  unfold tabMessage tabReply?
  simp only [ht] at h ⊢
  cases hr : DebuggerReply.ofJson m.content with
  | error cause => exact .of_note (singleton_kind rfl)
  | ok reply =>
    simp only [hr] at h ⊢
    cases hk : reply.kind with
    | attach => exact brings_handshakeReply ht reply
    | detach => exact brings_handshakeReply ht reply
    | request => exact .of_note (singleton_kind rfl)
    | navigated =>
      dsimp only
      rw [tell_eq]
      exact .of_note (told_kind s t fun _ => rfl)
    | closed =>
      rw [hk] at h
      cases h
    | other => exact ⟨s, [], (fun _ he => by cases he), (note_nil s).symm, rfl⟩

theorem serviceReply_table (p : Pending ServiceResponse) (m : Message) :
    (serviceReply p m).2 = match ServiceResponse.ofJson m.content with
      | .error _ => p
      | .ok response => (p.complete response.command response).2 := by
  unfold serviceReply
  cases ServiceResponse.ofJson m.content with
  | error cause => rfl
  | ok response =>
    dsimp only
    split <;> next h => rw [h]

theorem brings_serviceMessage {p : Pending ServiceResponse} (hp : s.service = some p) (m : Message) :
    Brings s .session (serviceReply? m) (s.serviceMessage p m) := by
  refine ⟨{ s with service := some (serviceReply p m).2 }, _, notices_kind (fun _ => rfl) _, logged_eq _ _, ?_⟩
  rw [serviceReply_table]
  unfold serviceReply?
  cases ServiceResponse.ofJson m.content with
  | error cause =>
    show ({ s with service := some p } : State) = s
    rw [← hp]
  | ok response => exact .session p hp response.command response

theorem brings_separateMessage (s : State) (m : Message) :
    Brings s .separate (serviceReply? m) (s.separateMessage m) := by
  refine ⟨{ s with separate := (serviceReply s.separate m).2 }, _, notices_kind (fun _ => rfl) _, logged_eq _ _, ?_⟩
  rw [serviceReply_table]
  unfold serviceReply?
  cases ServiceResponse.ofJson m.content with
  | error cause => rfl
  | ok response => exact .separate response.command response

/-- The desk that a message is for, if it is for one. -/
def addressee? (s : State) (m : Message) : Option Desk :=
  match s.recipient m with
  | .service _ => some .session
  | .tab t => some (.tab t)
  | .nobody _ => none

/-- What a message answers at a desk. -/
def replyAt? (m : Message) : Desk → Option String
  | .tab _ => tabReply? m
  | _ => serviceReply? m

theorem service_of_recipient {m : Message} {p : Pending ServiceResponse}
    (h : s.recipient m = .service p) : s.service = some p := by
  unfold recipient at h
  split at h
  · cases h
  · split at h
    · cases h
    · split at h
      · cases h
      · next hs =>
        rw [hs]
        cases h
        rfl
    · split at h
      · cases h
      · split at h <;> cases h

/-- The tab that receives a message is registered under the id that the message names. -/
theorem registered_of_recipient {m : Message} {t : Instance} (h : s.recipient m = .tab t) :
    s.Enlisted t := by
  unfold recipient at h
  split at h
  · cases h
  · split at h
    · cases h
    · split at h <;> cases h
    · split at h
      · cases h
      · next id _ =>
        split at h
        · cases h
        · next u hu =>
          cases h
          exact ⟨id, mem_of_lookup hu⟩

theorem Sound.known_of_enlisted (hs : s.Sound) {t : Instance} (h : s.Enlisted t) :
    (s.tab? t).isSome = true := by
  obtain ⟨id, hm⟩ := h
  rw [← isSome_ident, hs.own id t hm]
  rfl

/-- A message that ends nothing does to a session what it brings to the desk that it is for. -/
theorem Sound.brings_deliver (hs : s.Sound) {m : Message} (listens : s.listens = true)
    (quiet : s.delivering? m = none) :
    (∃ d, s.addressee? m = some d ∧ Brings s d (replyAt? m d) (s.deliver m) ∧
        ∀ t, d = .tab t → s.Enlisted t) ∨
      (s.addressee? m = none ∧ ∃ n, s.deliver m = s.logged n) := by
  unfold delivering? at quiet
  rw [if_pos listens] at quiet
  unfold deliver dispatch addressee?
  rw [if_pos listens]
  cases hr : s.recipient m with
  | service p =>
    have hb := brings_serviceMessage (service_of_recipient hr) m
    exact Or.inl ⟨.session, rfl, hb, fun _ => Desk.noConfusion⟩
  | tab t =>
    have he := registered_of_recipient hr
    rw [hr] at quiet
    refine Or.inl ⟨.tab t, rfl, brings_tabMessage (hs.known_of_enlisted he) quiet, fun u hu => ?_⟩
    cases hu
    exact he
  | nobody n => exact Or.inr ⟨rfl, n, rfl⟩

theorem deliver_of_delivering (m : Message) (h : s.delivering? m = some o) :
    s.deliver m = (o.before.fire o.trigger).note o.after := by
  unfold delivering? at h
  unfold deliver
  split at h
  · next hl =>
    rw [if_pos hl]
    unfold dispatch
    split at h
    · next ht =>
      rw [ht]
      exact tabMessage_of_closing _ m h
    · cases h
  · cases h

/-! ### Calls -/

theorem resume_of_ousting {c : Call} (h : s.ousting? c = some o) :
    s.resume c = (o.before.fire o.trigger).note o.after := by
  unfold ousting? at h
  split at h
  · next k d hp =>
    obtain ⟨t, ht, rfl⟩ := Option.map_eq_some_iff.mp h
    unfold ousts? at ht
    split at ht
    · next t' hr =>
      split at ht
      · next reply ha =>
        split at ht
        · next hok =>
          obtain rfl := Option.some.inj ht
          have hw : s.waitEnd? (s.tabTable t') c.request k d = some (.ok reply) := waitEnd?_ok.mpr ha
          unfold resume
          rw [hp]
          show s.poll c k d = ((s.quit c k).detached t').report c (.handshake (.ok ()))
          rw [poll_of_tab (by rw [hr]; rfl), hw]
          simp only [Option.map_some, Option.getD_some, handshakeEnds, hr, detachEnds, hok, if_true]
        · cases ht
      · cases ht
    · cases ht
  · cases h

theorem call_of_call? {id : CallId} {c : Call} (h : s.call? id = some c) : c ∈ s.calls ∧ c.id = id := by
  refine ⟨List.mem_of_find?_eq_some h, ?_⟩
  have hp := List.find?_some h
  simpa using hp

theorem ousts_of_ousting {c : Call} (h : s.ousting? c = none) (k : Ticket) (d : Nat)
    (hp : c.point = .awaiting k d) : s.ousts? c k = none := by
  unfold ousting? at h
  rw [hp] at h
  exact Option.map_eq_none_iff.mp h

/-! ### Actions -/

theorem act_of_occasion {a : Action} (h : s.occasion? a = some o) :
    s.act a = (o.before.fire o.trigger).note o.after := by
  cases a with
  | close =>
    obtain rfl := Option.some.inj h
    exact (note_nil _).symm
  | terminate id =>
    simp only [occasion?, terminating?] at h
    simp only [act]
    split at h
    · next ha =>
      obtain rfl := Option.some.inj h
      rw [if_pos ha, note_nil]
      rfl
    · cases h
  | tabTerminated t =>
    obtain ⟨tab, ht, h⟩ := Option.bind_eq_some_iff.mp h
    simp only [terminating?] at h
    simp only [act, tabTerminated, ht]
    split at h
    · next ha =>
      obtain rfl := Option.some.inj h
      rw [if_pos ha, note_nil]
      rfl
    · cases h
  | detached t =>
    obtain rfl := Option.some.inj h
    exact (note_nil _).symm
  | handle t m => exact tabMessage_of_closing t m h
  | deliver m => exact deliver_of_delivering m h
  | receive =>
    simp only [occasion?] at h
    simp only [act, receive]
    cases hi : s.connection.inbound with
    | nil =>
      rw [hi] at h
      cases h
    | cons m rest =>
      simp only [hi] at h
      exact deliver_of_delivering m h
  | resume id =>
    obtain ⟨c, hc, h⟩ := Option.bind_eq_some_iff.mp h
    simp only [act, hc]
    exact resume_of_ousting h
  | _ => cases h

/-- The state in which the oldest message is handed over. -/
def popped (s : State) (rest : List Message) : State :=
  { s with connection := { s.connection with inbound := rest } }

/-! ### Before and after -/

theorem before_of_closing {t : Instance} {m : Message} (h : s.closing? t m = some o) :
    o = ⟨s.tell t .closed, .detached t, []⟩ := by
  unfold closing? at h
  split at h
  · cases h
  · split at h
    · cases h
    · split at h
      · exact (Option.some.inj h).symm
      · cases h

theorem before_of_delivering {m : Message} (h : s.delivering? m = some o) :
    ∃ t, s.recipient m = .tab t ∧ o = ⟨s.tell t .closed, .detached t, []⟩ := by
  unfold delivering? at h
  split at h
  · split at h
    · next t ht => exact ⟨t, ht, before_of_closing h⟩
    · cases h
  · cases h

theorem ousts_eq_some {c : Call} {k : Ticket} {t : Instance} (h : s.ousts? c k = some t) :
    c.request = .detach t ∧ ∃ reply, (s.tabTable t).receiver? k = some (.answered reply) ∧
      reply.code.isOk = true := by
  unfold ousts? at h
  split at h
  · next t' hr =>
    split at h
    · next reply ha =>
      split at h
      · next hok =>
        obtain rfl := Option.some.inj h
        exact ⟨hr, reply, ha, hok⟩
      · cases h
    · cases h
  · cases h

theorem before_of_ousting {c : Call} (h : s.ousting? c = some o) :
    ∃ k d t, c.point = .awaiting k d ∧ s.ousts? c k = some t ∧
      o = ⟨s.quit c k, .detached t, [.finished c.id c.request (.handshake (.ok ()))]⟩ := by
  unfold ousting? at h
  split at h
  · next k d hp =>
    obtain ⟨t, ht, rfl⟩ := Option.map_eq_some_iff.mp h
    exact ⟨k, d, t, hp, ht, rfl⟩
  · cases h

theorem before_of_terminating {id : TabId} (h : s.terminating? id = some o) :
    s.alive = true ∧ o = ⟨s, .terminated id, []⟩ := by
  unfold terminating? at h
  split at h
  · next ha => exact ⟨ha, (Option.some.inj h).symm⟩
  · cases h

/-- The occasions that actions give. -/
inductive Arises (s : State) : Action → Occasion → Prop
  | close : Arises s .close ⟨s, .close, []⟩
  | terminated (id : TabId) : Arises s (.terminate id) ⟨s, .terminated id, []⟩
  | tabTerminated (t : Instance) (tab : Tab) (known : s.tab? t = some tab) :
      Arises s (.tabTerminated t) ⟨s, .terminated tab.id, []⟩
  | detached (t : Instance) : Arises s (.detached t) ⟨s, .detached t, []⟩
  | handled (t : Instance) (m : Message) : Arises s (.handle t m) ⟨s.tell t .closed, .detached t, []⟩
  | delivered (t : Instance) (m : Message) : Arises s (.deliver m) ⟨s.tell t .closed, .detached t, []⟩
  | received (t : Instance) (rest : List Message) :
      Arises s .receive ⟨(s.popped rest).tell t .closed, .detached t, []⟩
  | granted (c : Call) (k : Ticket) (d : Nat) (t : Instance) (mem : c ∈ s.calls)
      (waits : c.point = .awaiting k d) (about : c.request = .detach t) :
      Arises s (.resume c.id)
        ⟨s.quit c k, .detached t, [.finished c.id (.detach t) (.handshake (.ok ()))]⟩

theorem arises {a : Action} (h : s.occasion? a = some o) : s.Arises a o := by
  cases a with
  | close =>
    obtain rfl := Option.some.inj h
    exact .close
  | terminate id =>
    obtain ⟨_, rfl⟩ := before_of_terminating h
    exact .terminated id
  | tabTerminated t =>
    obtain ⟨tab, known, h⟩ := Option.bind_eq_some_iff.mp h
    obtain ⟨_, rfl⟩ := before_of_terminating h
    exact .tabTerminated t tab known
  | detached t =>
    obtain rfl := Option.some.inj h
    exact .detached t
  | handle t m =>
    obtain rfl := before_of_closing h
    exact .handled t m
  | deliver m =>
    obtain ⟨t, _, rfl⟩ := before_of_delivering h
    exact .delivered t m
  | receive =>
    simp only [occasion?] at h
    split at h
    · cases h
    · next rest _ =>
      obtain ⟨t, _, rfl⟩ := before_of_delivering h
      exact .received t rest
  | resume id =>
    obtain ⟨c, hc, h⟩ := Option.bind_eq_some_iff.mp h
    obtain ⟨k, d, t, hp, ht, rfl⟩ := before_of_ousting h
    obtain ⟨mem, rfl⟩ := call_of_call? hc
    have about := (ousts_eq_some ht).1
    rw [about]
    exact .granted c k d t mem hp about
  | _ => cases h

/-- Until something ends, the tabs and the registry stay as they are. -/
theorem Sound.view_before (hs : s.Sound) {a : Action} (h : s.occasion? a = some o) :
    ∃ calls lock board, o.before.view = { s.view with calls, lock, board } := by
  have told : ∀ (x : State) t, x.view = s.view → ∃ calls lock board,
      (x.tell t .closed).view = { s.view with calls, lock, board } := by
    intro x t hx
    rw [tell_eq, view_note, hx]
    exact ⟨_, _, _, rfl⟩
  cases arises h with
  | handled t m => exact told s t rfl
  | delivered t m => exact told s t rfl
  | received t rest => exact told _ t rfl
  | granted c k d t mem waits about =>
    rw [view_quit s c k (hs.hasTab mem), View.quit_eq]
    exact ⟨_, _, _, rfl⟩
  | _ => exact ⟨_, _, _, rfl⟩

/-- Until something ends, at most a message is taken off the connection. -/
theorem connection_before {a : Action} (h : s.occasion? a = some o) :
    ∃ inbound, o.before.connection = { s.connection with inbound } := by
  have told : ∀ (x : State) t, (x.tell t .closed).connection = x.connection := by
    intro x t
    rw [tell_eq]
    rfl
  cases arises h with
  | handled t m => exact ⟨_, told s t⟩
  | delivered t m => exact ⟨_, told s t⟩
  | received t rest => exact ⟨rest, told _ t⟩
  | granted c k d t mem waits about => exact ⟨_, connection_quit s c k⟩
  | _ => exact ⟨_, rfl⟩

/-- Until something ends, at most the listener of a tab hears that it is closed, and then it is the
attachment of the tab that ends. -/
theorem journal_before {a : Action} (h : s.occasion? a = some o) :
    o.before.journal = s.journal ∨
      ∃ t, o.trigger = .detached t ∧ o.before.journal = s.journal ++ s.told t .closed := by
  cases arises h with
  | handled t m => exact Or.inr ⟨t, rfl, by rw [tell_eq]; rfl⟩
  | delivered t m => exact Or.inr ⟨t, rfl, by rw [tell_eq]; rfl⟩
  | received t rest => exact Or.inr ⟨t, rfl, by rw [tell_eq]; rfl⟩
  | granted c k d t mem waits about => exact Or.inl (journal_quit s c k)
  | _ => exact Or.inl rfl

/-- Afterwards, at most a granted detach is noted. -/
theorem after_of_occasion {a : Action} (h : s.occasion? a = some o) :
    o.after = [] ∨ ∃ id t, o.after = [.finished id (.detach t) (.handshake (.ok ()))] := by
  cases arises h with
  | granted c k d t mem waits about => exact Or.inr ⟨c.id, t, rfl⟩
  | _ => exact Or.inl rfl

end State
end RemoteDebug.Engine
