import RemoteDebug.Proofs.Change

/-! The stages of a call, and the operations that each is made of.

The functions by which a call goes on are taken apart here, once for whatever they keep. A call that has
what it needs for itself prepares what it asks for (`Preparation`), and then it asks or leaves (`Begun`);
when its wait is over it draws its conclusions (`Conclusion`), or its exchange is granted (`Polled`). So a
call goes on by deeds (`Deed`) and sends its request once at most (`deeds_resume`), and what each of the
stages keeps is kept by the call (`resume_of_stages`). -/
namespace RemoteDebug.Engine
open Protocol Wire
open Relation (ReflTransGen)

theorem Request.eq_of_tab? {r : Request} {t : Instance} (h : r.tab? = some t) :
    (∃ l, r = .attach t l) ∨ r = .detach t := by
  cases r with
  | attach u l => exact Or.inl ⟨l, by rw [Option.some.inj h]⟩
  | detach u => exact Or.inr (by rw [Option.some.inj h])
  | _ => cases h

/-- What a tab shows. Who holds it, who waits for it and what is under way is left out. -/
def Tab.face (t : Tab) : Tab := { t with attaching := false, pending := {}, lock := [] }

namespace State

variable {s s' s'' : State} {c : Call} {t : Instance}

/-! ### What a call holds -/

/-- Nothing changes but the calls, what they hold and the tables in which they wait. -/
structure Inward (s s' : State) : Prop where
  tabs : s'.tabs.map Tab.face = s.tabs.map Tab.face
  registry : s'.registry = s.registry
  connection : s'.connection = s.connection
  ready : s'.networkReady = s.networkReady
  journal : s'.journal = s.journal

theorem Inward.of_tabs (tabs : s'.tabs = s.tabs) (registry : s'.registry = s.registry)
    (connection : s'.connection = s.connection) (ready : s'.networkReady = s.networkReady)
    (journal : s'.journal = s.journal) : Inward s s' :=
  ⟨congrArg _ tabs, registry, connection, ready, journal⟩

theorem Inward.refl (s : State) : Inward s s := ⟨rfl, rfl, rfl, rfl, rfl⟩

theorem Inward.trans (h : Inward s s') (h' : Inward s' s'') : Inward s s'' :=
  ⟨h'.tabs.trans h.tabs, h'.registry.trans h.registry, h'.connection.trans h.connection,
    h'.ready.trans h.ready, h'.journal.trans h.journal⟩

/-- What a tab shows does not change. -/
theorem Inward.field {β : Type} (h : Inward s s') (t : Instance) (g : Tab → β)
    (shown : ∀ x : Tab, g x.face = g x) : (s'.tab? t).map g = (s.tab? t).map g := by
  have hface : (s'.tab? t).map Tab.face = (s.tab? t).map Tab.face := by
    unfold tab?
    rw [← List.getElem?_map, ← List.getElem?_map, h.tabs]
  have hg : g ∘ Tab.face = g := funext shown
  rw [← hg, ← Option.map_map, ← Option.map_map, hface]

theorem Inward.length (h : Inward s s') : s'.tabs.length = s.tabs.length := by
  simpa only [List.length_map] using congrArg List.length h.tabs

theorem Inward.attached (h : Inward s s') : s'.isAttached = s.isAttached := by
  funext t
  rw [isAttached_eq, isAttached_eq, h.field t (·.attached) fun _ => rfl]

theorem Inward.listener (h : Inward s s') : s'.view.listener = s.view.listener := by
  funext t
  rw [listener_eq, listener_eq, h.field t (·.listener) fun _ => rfl]

theorem Inward.modifyTab (s : State) (u : Instance) {f : Tab → Tab} (shown : ∀ x, (f x).face = x.face) :
    Inward s (s.modifyTab u f) := by
  refine ⟨List.ext_getElem? fun t => ?_, rfl, rfl, rfl, rfl⟩
  rw [List.getElem?_map, List.getElem?_map]
  exact map_tab?_modifyTab s u t f Tab.face shown

theorem Inward.changeLock (s : State) (r : Request) (f : List CallId → List CallId) :
    Inward s (s.changeLock r f) := by
  cases r with
  | attach u l => exact .modifyTab s u fun _ => rfl
  | detach u => exact .modifyTab s u fun _ => rfl
  | _ => exact .of_tabs rfl rfl rfl rfl rfl

theorem Inward.setPoint (s : State) (id : CallId) (p : Point) : Inward s (s.setPoint id p) :=
  .of_tabs rfl rfl rfl rfl rfl

theorem Inward.unmark (s : State) (r : Request) : Inward s (s.unmark r) := by
  cases r with
  | attach u l => exact .modifyTab s u fun _ => rfl
  | _ => exact .refl s

theorem Inward.retire (s : State) (c : Call) : Inward s (s.retire c) := by
  have hout : Inward s { s with calls := s.calls.filter (·.id != c.id) } := .of_tabs rfl rfl rfl rfl rfl
  exact hout.trans (.changeLock _ _ _)

theorem Inward.quit (s : State) (c : Call) (k : Ticket) : Inward s (s.quit c k) := by
  have hleave : Inward s (s.leave c.request k) := by
    cases c.request with
    | attach u l => exact .modifyTab s u fun _ => rfl
    | detach u => exact .modifyTab s u fun _ => rfl
    | _ => exact .of_tabs rfl rfl rfl rfl rfl
  exact (hleave.trans (.unmark _ _)).trans (.retire _ c)

theorem Inward.enter (s : State) (c : Call) : Inward s (s.enter c) := by
  have hjoin : Inward s (s.join c.request) := by
    cases c.request with
    | attach u l => exact .modifyTab s u fun _ => rfl
    | detach u => exact .modifyTab s u fun _ => rfl
    | _ => exact .of_tabs rfl rfl rfl rfl rfl
  exact hjoin.trans (.setPoint _ _ _)

/-! ### Conclusions -/

/-- What a call may note as it goes on: a line of the log, or how it came out; of an exchange, that it
failed. -/
inductive Remark (c : Call) : Entry → Prop
  | notice (n : Notice) : Remark c (.notice n)
  | finished (r : Result) (failed : ∀ t, c.request.tab? = some t → ∃ e, r = .handshake (.error e)) :
      Remark c (.finished c.id c.request r)

theorem Remark.of_free (free : c.request.tab? = none) (r : Result) :
    Remark c (.finished c.id c.request r) := by
  refine .finished r fun t ht => ?_
  rw [free] at ht
  cases ht

theorem Remark.failed (c : Call) (e : AttachError) :
    Remark c (.finished c.id c.request (.handshake (.error e))) :=
  .finished _ fun _ _ => ⟨e, rfl⟩

/-- What a call brings about when it waits no longer, its exchange aside. -/
inductive Conclusion (c : Call) (s : State) : State → Prop
  | noted (e : Entry) (remark : Remark c e) : Conclusion c s (s.record e)
  | readied (about : c.request = .connect) (ready : Bool) : Conclusion c s { s with networkReady := ready }
  | created (about : c.request = .tabs) (e : TabEntry) (vacant : s.Vacant e.id) : Conclusion c s (s.create e).1

def Conclusions (c : Call) : State → State → Prop := ReflTransGen (Conclusion c)

theorem conclusions_log (s : State) (c : Call) (n : Notice) : Conclusions c s (s.log n) :=
  .single (.noted _ (.notice n))

theorem conclusions_report (s : State) (free : c.request.tab? = none) (r : Result) :
    Conclusions c s (s.report c r) :=
  .single (.noted _ (.of_free free r))

theorem conclusions_failed (s : State) (c : Call) (e : AttachError) :
    Conclusions c s (s.report c (.handshake (.error e))) :=
  .single (.noted _ (.failed c e))

theorem conclusions_versionIn (s : State) (c : Call) (response : ServiceResponse) :
    Conclusions c s (s.versionIn response).1 := by
  unfold versionIn
  split
  · exact .refl
  · exact conclusions_log s c _

theorem conclusions_connectEnds (s : State) (about : c.request = .connect) (response : ServiceResponse) :
    Conclusions c s (s.connectEnds c response) := by
  have free : c.request.tab? = none := by rw [about]; rfl
  have hv := conclusions_versionIn s c response
  unfold connectEnds
  dsimp only
  split
  · exact (hv.tail (.readied about true)).trans (conclusions_report _ free _)
  · exact ((hv.tail (.readied about false)).trans (conclusions_log _ c _)).trans (conclusions_report _ free _)

/-- A listed tab is shown by a live instance that was there before, or a new one is made for it. -/
theorem adopt_cases (s : State) (e : TabEntry) :
    (∃ u, s.registered? e.id = some u ∧ s.isLive u = true ∧ s.adopt e = (s, u)) ∨
      (s.Vacant e.id ∧ s.adopt e = s.create e) := by
  unfold adopt
  split
  · next u hr =>
    split
    · next hl => exact Or.inl ⟨u, hr, hl, rfl⟩
    · next hl =>
      refine Or.inr ⟨fun w hw => ?_, rfl⟩
      rw [hr] at hw
      exact Option.some.inj hw ▸ Bool.eq_false_iff.mpr hl
  · next hr =>
    refine Or.inr ⟨fun w hw => ?_, rfl⟩
    rw [hr] at hw
    cases hw

theorem conclusions_adopt (s : State) (about : c.request = .tabs) (e : TabEntry) :
    Conclusions c s (s.adopt e).1 := by
  rcases adopt_cases s e with ⟨u, _, _, h⟩ | ⟨vacant, h⟩ <;> rw [h]
  · exact .refl
  · exact .single (.created about e vacant)

theorem conclusions_adoptAll (s : State) (about : c.request = .tabs) (entries : List TabEntry) :
    Conclusions c s (s.adoptAll entries).1 := by
  induction entries generalizing s with
  | nil => exact .refl
  | cons e rest ih => exact (conclusions_adopt s about e).trans (ih (s.adopt e).1)

theorem conclusions_serviceEnds (s : State) (free : c.request.tab? = none)
    (r : Except TransportError ServiceResponse) : Conclusions c s (s.serviceEnds c r) := by
  unfold serviceEnds
  split
  · next about =>
    split
    · exact conclusions_report s free _
    · exact conclusions_connectEnds s about _
  · next about =>
    split
    · exact conclusions_report s free _
    · exact (conclusions_adoptAll s about _).trans (conclusions_report _ free _)
  · split
    · exact conclusions_report s free _
    · exact (conclusions_versionIn s c _).trans (conclusions_report _ free _)
  · exact conclusions_report s free _
  · exact conclusions_report s free _

theorem conclusions_rejected (s : State) (c : Call) (t : Instance) (h : Handshake) (code : ResultCode) :
    Conclusions c s ((s.logRejected t h code).report c (.handshake (.error (.rejected h code)))) := by
  refine .trans ?_ (conclusions_failed _ c _)
  unfold logRejected
  split
  · exact conclusions_log s c _
  · exact .refl

theorem handshakeEnds_error (s : State) (c : Call) (t : Instance) (e : TransportError) :
    s.handshakeEnds c t (.error e) = s.report c (.handshake (.error (.transport e))) := by
  unfold handshakeEnds
  split <;> rfl

theorem conclusions_sendFails (s : State) (c : Call) (e : TransportError) :
    Conclusions c s (s.sendFails c e) := by
  unfold sendFails
  split
  · rw [handshakeEnds_error]
    exact conclusions_failed s c _
  · next free => exact conclusions_serviceEnds s free _

/-! ### The end of a wait -/

theorem waitEnd?_ok {α : Type} {p : Pending α} {r : Request} {k : Ticket} {d : Nat} {v : α} :
    s.waitEnd? p r k d = some (.ok v) ↔ p.receiver? k = some (.answered v) := by
  unfold waitEnd?
  split
  · next h => simp [h]
  · next h => simp [h]
  · next h₁ h₂ =>
    refine ⟨fun h => ?_, fun h => absurd h (h₁ v)⟩
    split at h <;> cases h

theorem poll_of_tab (about : c.request.tab? = some t) (k : Ticket) (d : Nat) : s.poll c k d =
    ((s.waitEnd? (s.tabTable t) c.request k d).map ((s.quit c k).handshakeEnds c t)).getD s := by
  unfold poll
  rw [about]
  dsimp only
  cases s.waitEnd? (s.tabTable t) c.request k d <;> rfl

theorem poll_of_free (free : c.request.tab? = none) (k : Ticket) (d : Nat) : s.poll c k d =
    ((s.waitEnd? (s.serviceTable c.request) c.request k d).map ((s.quit c k).serviceEnds c)).getD s := by
  unfold poll
  rw [free]
  dsimp only
  cases s.waitEnd? (s.serviceTable c.request) c.request k d <;> rfl

/-- How a wait goes on: it lasts, or the call leaves and draws its conclusions, or its exchange is granted. -/
inductive Polled (s : State) (c : Call) (k : Ticket) (d : Nat) : State → Prop
  | lasts (still : c.point = .awaiting k d → s.runnable c = false) : Polled s c k d s
  | left {s' : State} (conclusions : Conclusions c (s.quit c k) s') : Polled s c k d s'
  | attached (t : Instance) (l : Listener) (reply : DebuggerReply) (about : c.request = .attach t l)
      (heard : (s.tabTable t).receiver? k = some (.answered reply)) (ok : reply.code.isOk = true) :
      Polled s c k d (s.granted c t k)
  | detached (t : Instance) (reply : DebuggerReply) (about : c.request = .detach t)
      (heard : (s.tabTable t).receiver? k = some (.answered reply)) (ok : reply.code.isOk = true) :
      Polled s c k d (((s.quit c k).detached t).report c (.handshake (.ok ())))

theorem polled_handshake {k : Ticket} {d : Nat} {r : Except TransportError DebuggerReply}
    (about : c.request.tab? = some t) (ended : s.waitEnd? (s.tabTable t) c.request k d = some r) :
    s.Polled c k d ((s.quit c k).handshakeEnds c t r) := by
  cases r with
  | error e =>
    rw [handshakeEnds_error]
    exact .left (conclusions_failed _ c _)
  | ok reply =>
    have heard := waitEnd?_ok.mp ended
    rcases Request.eq_of_tab? about with ⟨l, hr⟩ | hr
    · simp only [handshakeEnds, hr, attachEnds]
      split
      · next ok => exact .attached t l reply hr heard ok
      · exact .left (conclusions_rejected _ c t .attach reply.code)
    · simp only [handshakeEnds, hr, detachEnds]
      split
      · next ok => exact .detached t reply hr heard ok
      · exact .left (conclusions_rejected _ c t .detach reply.code)

theorem polled (s : State) (c : Call) (k : Ticket) (d : Nat) : s.Polled c k d (s.poll c k d) := by
  cases about : c.request.tab? with
  | some t =>
    rw [poll_of_tab about]
    cases wait : s.waitEnd? (s.tabTable t) c.request k d with
    | some r => exact polled_handshake about wait
    | none => exact .lasts fun hp => by simp only [runnable, hp, about, wait, Option.isSome_none]
  | none =>
    rw [poll_of_free about]
    cases wait : s.waitEnd? (s.serviceTable c.request) c.request k d with
    | some r => exact .left (conclusions_serviceEnds _ about r)
    | none => exact .lasts fun hp => by simp only [runnable, hp, about, wait, Option.isSome_none]

/-- A call whose request goes out looks at once whether it is answered. -/
theorem ask_of_ok {m : Message} (sent : ((s.enter c).send (some c.id) m).2 = .ok ()) :
    s.ask c m = (s.asked c m).poll c (s.nextTicket c.request) (s.deadlineOf c.request) := by
  unfold ask
  rw [show (s.enter c).send (some c.id) m = (s.asked c m, .ok ()) from Prod.ext rfl sent]

theorem ask_of_error {m : Message} {e : TransportError}
    (unsent : ((s.enter c).send (some c.id) m).2 = .error e) :
    s.ask c m = (s.refused c m).sendFails c e := by
  unfold ask
  rw [show (s.enter c).send (some c.id) m = (s.asked c m, .error e) from Prod.ext rfl unsent]
  rfl

theorem ask_cases (s : State) (c : Call) (m : Message) :
    (((s.enter c).send (some c.id) m).2 = .ok () ∧
      s.ask c m = (s.asked c m).poll c (s.nextTicket c.request) (s.deadlineOf c.request)) ∨
    ∃ e, ((s.enter c).send (some c.id) m).2 = .error e ∧ Conclusions c (s.refused c m) (s.ask c m) := by
  cases h : ((s.enter c).send (some c.id) m).2 with
  | ok u => exact Or.inl ⟨rfl, ask_of_ok h⟩
  | error e =>
    rw [ask_of_error h]
    exact Or.inr ⟨e, rfl, conclusions_sendFails _ c e⟩

/-! ### From the start -/

/-- The message that the request of a call goes out as. -/
def petition (s : State) : Request → Message
  | .connect => ServiceCommand.version.toMessage
  | .ping => ServiceCommand.ping.toMessage
  | .tabs => ServiceCommand.listTabs.toMessage
  | .attach t _ => DebuggerCommand.attach.toMessage (((s.tab? t).map (·.id)).getD 0)
  | .detach t => DebuggerCommand.detach.toMessage (((s.tab? t).map (·.id)).getD 0)
  | .service command _ => command.toMessage

/-- What a call prepares before it asks. -/
inductive Preparation (c : Call) (s : State) : State → Prop
  | served (free : c.request.tab? = none) : Preparation c s s.ensureService
  | started (about : c.request = .connect) (service : s.service.isSome = true) :
      Preparation c s s.startConnection.1
  | purged (about : c.request = .tabs) : Preparation c s s.purge
  | marked (t : Instance) (l : Listener) (about : c.request = .attach t l) : Preparation c s (s.mark t l)
  | enrolled (t : Instance) (l : Listener) (tab : Tab) (about : c.request = .attach t l)
      (known : s.tab? t = some tab) (vacant : s.Vacant tab.id) : Preparation c s (s.enroll tab.id t)

def Preparations (c : Call) : State → State → Prop := ReflTransGen (Preparation c)

/-- How a call begins: once it has made its preparations it asks, or it leaves. -/
inductive Begun (s : State) (c : Call) : State → Prop
  | asks (x : State) (prepared : Preparations c s x) (fits : x.Fits c.request) :
      Begun s c (x.ask c (s.petition c.request))
  | leaves (x : State) (prepared : Preparations c s x) (r : Result)
      (remark : Remark c (.finished c.id c.request r)) : Begun s c ((x.unmark c.request).finish c r)

theorem isSome_service (s : State) : s.ensureService.service.isSome = true := by
  unfold ensureService
  split
  · next h => rw [h]; rfl
  · rfl

theorem begun_beginConnect (s : State) (about : c.request = .connect) : s.Begun c (s.beginConnect c) := by
  have free : c.request.tab? = none := by rw [about]; rfl
  have hserved : Preparations c s s.ensureService := .single (.served free)
  have hservice := isSome_service s
  have hstarted := hserved.tail (.started about hservice)
  have hasks : ∀ x, Preparations c s x → x.service.isSome = true →
      s.Begun c (x.ask c ServiceCommand.version.toMessage) := by
    intro x hx fits
    have h := Begun.asks x hx (by rw [about]; exact fits)
    rwa [about] at h
  have hleaves : ∀ x r, Preparations c s x → s.Begun c (x.finish c r) := by
    intro x r hx
    have h := Begun.leaves x hx r (.of_free free r)
    rwa [about] at h
  unfold beginConnect
  dsimp only
  split
  · exact hleaves _ _ hserved
  · split
    · exact hasks _ hserved hservice
    · have hservice' : s.ensureService.startConnection.1.service.isSome = true := hservice
      split
      · next he =>
        rw [he] at hstarted hservice'
        exact hasks _ hstarted hservice'
      · next he =>
        rw [he] at hstarted
        exact hleaves _ _ hstarted

theorem register_cases (s : State) (t : Instance) :
    s.register t = s ∨
      ∃ tab, s.tab? t = some tab ∧ s.Vacant tab.id ∧ s.register t = s.enroll tab.id t := by
  unfold register
  cases ht : s.tab? t with
  | none => exact Or.inl rfl
  | some tab =>
    dsimp only
    cases hu : s.registered? tab.id with
    | none =>
      refine Or.inr ⟨tab, rfl, fun u h => ?_, rfl⟩
      rw [hu] at h
      cases h
    | some u =>
      dsimp only
      split
      · exact Or.inl rfl
      · next h =>
        simp only [Bool.or_eq_true, decide_eq_true_eq, not_or] at h
        refine Or.inr ⟨tab, rfl, fun w hw => ?_, rfl⟩
        rw [hu] at hw
        exact Option.some.inj hw ▸ Bool.eq_false_iff.mpr h.2

/-- The tab of an attach as the attach finds it when it asks: with its listener, and in its place if there
is a session. -/
def placed (s : State) (t : Instance) (l : Listener) : State :=
  if (s.mark t l).alive then (s.mark t l).register t else s.mark t l

theorem preparations_placed (s : State) {l : Listener} (about : c.request = .attach t l) :
    Preparations c s (s.placed t l) := by
  have hmark : Preparations c s (s.mark t l) := .single (.marked t l about)
  unfold placed
  split
  · rcases register_cases (s.mark t l) t with h | ⟨tab, known, vacant, h⟩ <;> rw [h]
    · exact hmark
    · exact hmark.tail (.enrolled t l tab about known vacant)
  · exact hmark

theorem placed_eq (s : State) (t : Instance) (l : Listener) :
    ∃ registry, s.placed t l = { s.mark t l with registry } := by
  unfold placed
  split
  · rcases register_cases (s.mark t l) t with h | ⟨_, _, _, h⟩ <;> exact ⟨_, h⟩
  · exact ⟨_, rfl⟩

theorem tabs_placed (s : State) (t : Instance) (l : Listener) : (s.placed t l).tabs = (s.mark t l).tabs := by
  obtain ⟨registry, h⟩ := placed_eq s t l
  rw [h]

theorem journal_placed (s : State) (t : Instance) (l : Listener) : (s.placed t l).journal = s.journal := by
  obtain ⟨registry, h⟩ := placed_eq s t l
  rw [h]
  rfl

theorem tab?_placed (s : State) (t : Instance) (l : Listener) : (s.placed t l).tab? t =
    (s.tab? t).map fun tab => { tab with listener := some l, attaching := true } := by
  have hmark : (s.placed t l).tab? t = (s.mark t l).tab? t := by
    unfold tab?
    rw [tabs_placed]
  rw [hmark]
  unfold mark
  rw [tab?_modifyTab, if_pos rfl]

/-- An attach that begins asks once it has its place, or it leaves at once. -/
theorem beginAttach_asks_or_leaves (s : State) (c : Call) (t : Instance) (l : Listener) :
    (∃ tab, s.tab? t = some tab ∧ tab.attached = false ∧
      s.beginAttach c t l = (s.placed t l).ask c (DebuggerCommand.attach.toMessage tab.id)) ∨
      ∃ e, s.beginAttach c t l = ((s.placed t l).unmark c.request).finish c (.handshake (.error e)) := by
  unfold beginAttach
  dsimp only
  rw [show (if (s.mark t l).alive then (s.mark t l).register t else s.mark t l) = s.placed t l from rfl,
    tab?_placed]
  cases s.tab? t with
  | none => exact Or.inr ⟨_, rfl⟩
  | some tab =>
    dsimp only [Option.map]
    split
    · exact Or.inr ⟨_, rfl⟩
    · next h => exact Or.inl ⟨tab, rfl, Bool.eq_false_iff.mpr h, rfl⟩

theorem beginDetach_asks_or_leaves (s : State) (c : Call) (t : Instance) :
    (∃ tab, s.tab? t = some tab ∧ tab.attached = true ∧
      s.beginDetach c t = s.ask c (DebuggerCommand.detach.toMessage tab.id)) ∨
      ∃ e, s.beginDetach c t = s.finish c (.handshake (.error e)) := by
  unfold beginDetach
  cases s.tab? t with
  | none => exact Or.inr ⟨_, rfl⟩
  | some tab =>
    dsimp only
    split
    · next h => exact Or.inl ⟨tab, rfl, h, rfl⟩
    · exact Or.inr ⟨_, rfl⟩

/-- An attach of a tab that is not attached may ask, once its tab has its place. -/
theorem fits_placed {l : Listener} {tab : Tab} (known : s.tab? t = some tab) (free : tab.attached = false) :
    (s.placed t l).Fits (.attach t l) := by
  refine ⟨?_, ?_⟩
  · unfold isAttached
    rw [tab?_placed, known]
    exact free
  · show (((s.placed t l).tab? t).bind (·.listener)).isSome = true
    rw [tab?_placed, known]
    rfl

theorem begun_beginAttach (s : State) {l : Listener} (about : c.request = .attach t l) :
    s.Begun c (s.beginAttach c t l) := by
  have hplaced := preparations_placed s about
  rcases beginAttach_asks_or_leaves s c t l with ⟨tab, known, free, h⟩ | ⟨e, h⟩ <;> rw [h]
  · have hasks := Begun.asks _ hplaced (by rw [about]; exact fits_placed known free)
    simpa only [about, petition, known, Option.map_some, Option.getD_some] using hasks
  · exact .leaves _ hplaced _ (.failed c e)

theorem begun_beginDetach (s : State) (about : c.request = .detach t) : s.Begun c (s.beginDetach c t) := by
  rcases beginDetach_asks_or_leaves s c t with ⟨tab, known, attached, h⟩ | ⟨e, h⟩ <;> rw [h]
  · have fits : s.Fits c.request := by
      rw [about]
      show s.isAttached t = true
      unfold isAttached
      rw [known]
      exact attached
    have hasks := Begun.asks s .refl fits
    simpa only [about, petition, known, Option.map_some, Option.getD_some] using hasks
  · have hleaves := Begun.leaves s .refl _ (.failed c e)
    rwa [about] at hleaves

theorem begun (s : State) (c : Call) : s.Begun c (s.begin c) := by
  unfold begin
  cases about : c.request with
  | connect => exact begun_beginConnect s about
  | ping =>
    have free : c.request.tab? = none := by rw [about]; rfl
    dsimp only
    split
    · have h := Begun.asks _ (.single (.served free)) (by rw [about]; exact isSome_service s)
      rwa [about] at h
    · have h := Begun.leaves s .refl _ (.of_free free (.done (.error (.illegalState .notConnected))))
      rwa [about] at h
  | tabs =>
    have free : c.request.tab? = none := by rw [about]; rfl
    dsimp only
    split
    · have hserved : Preparations c s s.purge.ensureService := .tail (.single (.purged about)) (.served free)
      have h := Begun.asks _ hserved (by rw [about]; exact isSome_service s.purge)
      rwa [about] at h
    · have h := Begun.leaves s .refl _ (.of_free free (.tabs (.error (.illegalState .notConnected))))
      rwa [about] at h
  | attach t l => exact begun_beginAttach s about
  | detach t => exact begun_beginDetach s about
  | service command timeout =>
    have h := Begun.asks s .refl (by rw [about]; trivial)
    rwa [about] at h

/-! ### Going on -/

/-- The state in which a call looks whether it has what it needs for itself: it is in line by then. -/
def lined (s : State) (c : Call) : State :=
  if c.point = .fresh then s.changeLock c.request (· ++ [c.id]) else s

/-- A call that has not begun yet can begin: it has what it needs for itself. -/
def Admits (s : State) (c : Call) : Prop := c.Idle ∧ (s.lined c).holds c = true

theorem resume_of_admits (h : s.Admits c) : s.resume c = (s.lined c).begin c := by
  obtain ⟨idle, holds⟩ := h
  unfold lined at holds ⊢
  unfold resume
  cases hp : c.point with
  | fresh =>
    simp only [hp, if_true] at holds ⊢
    exact if_pos holds
  | queued =>
    simp only [hp, reduceCtorEq, if_false] at holds ⊢
    exact if_pos holds
  | awaiting k d => exact absurd hp (idle k d)

/-- Else it waits on, in line or for its reply. -/
theorem resume_of_not_admits (h : ¬ s.Admits c) : (c.point = .queued ∧ s.resume c = s) ∨
    (c.point = .fresh ∧ s.resume c = (s.lined c).setPoint c.id .queued) ∨
    ∃ k d, c.point = .awaiting k d ∧ s.resume c = s.poll c k d := by
  have hnot : c.Idle → ¬ (s.lined c).holds c = true := fun idle holds => h ⟨idle, holds⟩
  unfold lined at hnot ⊢
  unfold resume
  cases hp : c.point with
  | fresh =>
    rw [if_pos hp] at hnot
    exact Or.inr (Or.inl ⟨rfl, if_neg (hnot fun k d he => by rw [hp] at he; cases he)⟩)
  | queued =>
    rw [if_neg (by rw [hp]; exact Point.noConfusion)] at hnot
    exact Or.inl ⟨rfl, if_neg (hnot fun k d he => by rw [hp] at he; cases he)⟩
  | awaiting k d => exact Or.inr (Or.inr ⟨k, d, rfl, rfl⟩)

theorem calls_lined (s : State) (c : Call) : (s.lined c).calls = s.calls := by
  unfold lined
  split
  · cases c.request <;> rfl
  · rfl

theorem Inward.lined (s : State) (c : Call) : Inward s (s.lined c) := by
  unfold State.lined
  split
  · exact .changeLock s _ _
  · exact .refl s

theorem petition_lined (s : State) (c : Call) (r : Request) : (s.lined c).petition r = s.petition r := by
  have hid := fun t => (Inward.lined s c).field t (·.id) fun _ => rfl
  cases r <;> simp only [petition, hid]

/-! ### Deeds -/

/-- What a call does as it goes on, its preparations and its request aside. -/
inductive Deed (c : Call) (s : State) : State → Prop
  | concluded {s' : State} (h : Conclusion c s s') : Deed c s s'
  | queued : Deed c s (s.setPoint c.id .queued)
  | unmarked : Deed c s (s.unmark c.request)
  | quit (k : Ticket) : Deed c s (s.quit c k)
  | retired : Deed c s (s.retire c)
  | attached (t : Instance) (l : Listener) (about : c.request = .attach t l) :
      Deed c s ((s.modifyTab t fun tab => { tab with attached := true }).report c (.handshake (.ok ())))
  | detached (t : Instance) (about : c.request = .detach t) :
      Deed c s ((s.detached t).report c (.handshake (.ok ())))
  | unsent (m : Message) (e : TransportError) (unsent : ((s.enter c).send (some c.id) m).2 = .error e) :
      Deed c s (s.asked c m)

def Deeds (c : Call) : State → State → Prop := ReflTransGen (Deed c)

theorem Conclusions.deeds (h : Conclusions c s s') : Deeds c s s' :=
  ReflTransGen.lift id (fun _ _ => Deed.concluded) s s' h

theorem Polled.deeds {k : Ticket} {d : Nat} (h : s.Polled c k d s') : Deeds c s s' := by
  have hquit : Deeds c s (s.quit c k) := .single (.quit k)
  cases h with
  | lasts still => exact .refl
  | left conclusions => exact hquit.trans conclusions.deeds
  | attached t l reply about heard ok => exact hquit.tail (.attached t l about)
  | detached t reply about heard ok => exact hquit.tail (.detached t about)

theorem deeds_poll (s : State) (c : Call) (k : Ticket) (d : Nat) : Deeds c s (s.poll c k d) :=
  (polled s c k d).deeds

/-- What a call does that asks: deeds only, if its request does not go out, or after its request. -/
theorem deeds_ask (s : State) (c : Call) (m : Message) : Deeds c s (s.ask c m) ∨
    (((s.enter c).send (some c.id) m).2 = .ok () ∧ Deeds c (s.asked c m) (s.ask c m)) := by
  rcases ask_cases s c m with ⟨sent, h⟩ | ⟨e, unsent, h⟩
  · rw [h]
    exact Or.inr ⟨sent, deeds_poll _ c _ _⟩
  · exact Or.inl (.head (.unsent m e unsent) (.head (.quit _) h.deeds))

theorem deeds_finish (s : State) {r : Result} (remark : Remark c (.finished c.id c.request r)) :
    Deeds c s (s.finish c r) :=
  .tail (.single .retired) (.concluded (.noted _ remark))

/-- What a call does that begins: after its preparations it goes on by deeds, or asks first. -/
theorem deeds_begin (s : State) (c : Call) : ∃ x, Preparations c s x ∧ (Deeds c x (s.begin c) ∨
    (((x.enter c).send (some c.id) (s.petition c.request)).2 = .ok () ∧
      Deeds c (x.asked c (s.petition c.request)) (s.begin c))) := by
  have hbegun := begun s c
  generalize s.begin c = y at hbegun ⊢
  cases hbegun with
  | asks x prepared fits => exact ⟨x, prepared, deeds_ask x c _⟩
  | leaves x prepared r remark =>
    exact ⟨x, prepared, Or.inl (.head .unmarked (deeds_finish _ remark))⟩

theorem deeds_of_not_admits (h : ¬ s.Admits c) : Deeds c (s.lined c) (s.resume c) := by
  rcases resume_of_not_admits h with ⟨hp, h⟩ | ⟨hp, h⟩ | ⟨k, d, hp, h⟩ <;> rw [h]
  · rw [lined, if_neg (by rw [hp]; exact Point.noConfusion)]
    exact .refl
  · exact .single .queued
  · rw [lined, if_neg (by rw [hp]; exact Point.noConfusion)]
    exact deeds_poll s c k d

/-- What a call does that goes on: from its place in line, after its preparations, it goes on by deeds, or
it asks first. -/
theorem deeds_resume (s : State) (c : Call) : ∃ x, Preparations c (s.lined c) x ∧
    (Deeds c x (s.resume c) ∨ (((x.enter c).send (some c.id) (s.petition c.request)).2 = .ok () ∧
      Deeds c (x.asked c (s.petition c.request)) (s.resume c))) := by
  by_cases admits : s.Admits c
  · rw [resume_of_admits admits, ← petition_lined s c]
    exact deeds_begin _ c
  · exact ⟨_, .refl, Or.inl (deeds_of_not_admits admits)⟩

/-- A call that is cancelled leaves. -/
theorem deeds_cancel (hid : s.call? c.id = some c) : Deeds c s (s.cancel c.id) := by
  unfold cancel
  rw [hid]
  dsimp only
  split
  · exact .single (.quit _)
  · exact .single .retired

/-- What every stage of a call keeps, the call keeps. -/
theorem resume_of_stages {R : State → State → Prop} [Std.Refl R] [IsTrans State R]
    (lined : R s (s.lined c)) (prepared : Preparation c ≤ R) (asked : ∀ x m, R x (x.asked c m))
    (done : Deed c ≤ R) : R s (s.resume c) := by
  obtain ⟨x, hprepared, hdone⟩ := deeds_resume s c
  have hx : R s x := IsTrans.trans _ _ _ lined (Relation.reflTransGen_le_of_le prepared _ _ hprepared)
  rcases hdone with hdone | ⟨_, hdone⟩
  · exact IsTrans.trans _ _ _ hx (Relation.reflTransGen_le_of_le done _ _ hdone)
  · have hasked : R s (x.asked c (s.petition c.request)) := IsTrans.trans _ _ _ hx (asked x _)
    exact IsTrans.trans _ _ _ hasked (Relation.reflTransGen_le_of_le done _ _ hdone)

end State
end RemoteDebug.Engine
