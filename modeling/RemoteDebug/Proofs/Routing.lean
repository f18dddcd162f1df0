import RemoteDebug.Proofs.Attachment
import RemoteDebug.Proofs.Correlation
import RemoteDebug.Proofs.Listening
import RemoteDebug.Proofs.Shutdown
import RemoteDebug.Proofs.Termination

/-! What an inbound message reaches.

The tool of a message, the routes and its destination choose who receives it, and nothing else changes:
the table of the service handler, or one tab. The report that a tab is closed can close the
connection, which looks at every registered tab; but then none of them is live, so nobody waits there. -/
namespace RemoteDebug.Engine
open Protocol Wire

namespace State

variable {s s' s'' x : State} {c : Call} {t u : Instance} {id : TabId} {m : Message}

/-! ### Messages without effect -/

/-- Nobody receives the message, or its receiver cannot read it. -/
inductive Undeliverable (s : State) (m : Message) : Prop
  | unknown (h : m.tool? = none)
  | unrouted (tool : Tool) (names : m.tool? = some tool) (h : s.config.routes.get tool = none)
  | unserved (tool : Tool) (names : m.tool? = some tool)
      (route : s.config.routes.get tool = some .service) (h : s.service = none)
  | astray (tool : Tool) (names : m.tool? = some tool) (route : s.config.routes.get tool = some .tab)
      (h : m.tab? = none)
  | absent (tool : Tool) (id : TabId) (names : m.tool? = some tool)
      (route : s.config.routes.get tool = some .tab) (destined : m.tab? = some id)
      (h : s.registered? id = none)
  | garbledResponse (tool : Tool) (cause : Json.Mismatch) (names : m.tool? = some tool)
      (route : s.config.routes.get tool = some .service)
      (h : ServiceResponse.ofJson m.content = .error cause)
  | garbledReply (tool : Tool) (cause : Json.Mismatch) (names : m.tool? = some tool)
      (route : s.config.routes.get tool = some .tab)
      (h : DebuggerReply.ofJson m.content = .error cause)

theorem recipient_of_service {tool : Tool} (names : m.tool? = some tool)
    (route : s.config.routes.get tool = some .service) {p : Pending ServiceResponse}
    (served : s.service = some p) : s.recipient m = .service p := by
  unfold recipient
  rw [names]
  dsimp only
  rw [route]
  dsimp only
  rw [served]

/-- Where a tool goes to tabs, a message for it goes to the tab that is registered under its destination. -/
theorem recipient_of_destination {tool : Tool} (names : m.tool? = some tool)
    (route : s.config.routes.get tool = some .tab) (destined : m.tab? = some id) :
    s.recipient m = (s.registered? id).elim (.nobody none) .tab := by
  unfold recipient
  simp only [names, route, destined]
  cases s.registered? id <;> rfl

theorem recipient_of_tab {tool : Tool} (names : m.tool? = some tool)
    (route : s.config.routes.get tool = some .tab) (destined : m.tab? = some id)
    (registered : s.registered? id = some t) : s.recipient m = .tab t := by
  rw [recipient_of_destination names route destined, registered]
  rfl

theorem dispatch_of_nobody {n : Option Notice} (h : s.recipient m = .nobody n) :
    s.dispatch m = s.logged n := by
  unfold dispatch
  rw [h]

/-- A message without effect leaves a log line at most. -/
theorem Undeliverable.dispatch (h : s.Undeliverable m) : ∃ n, s.dispatch m = s.logged n := by
  have nobody : ∀ {n}, s.recipient m = .nobody n → ∃ n, s.dispatch m = s.logged n :=
    fun h => ⟨_, dispatch_of_nobody h⟩
  cases h with
  | unknown h => exact nobody (by unfold recipient; rw [h])
  | unrouted tool names h => exact nobody (by unfold recipient; simp only [names, h]; rfl)
  | unserved tool names route h => exact nobody (by unfold recipient; simp only [names, route, h]; rfl)
  | astray tool names route h => exact nobody (by unfold recipient; simp only [names, route, h]; rfl)
  | absent tool id names route destined h =>
    exact nobody (by rw [recipient_of_destination names route destined, h]; rfl)
  | garbledResponse tool cause names route h =>
    cases served : s.service with
    | none => exact nobody (by unfold recipient; simp only [names, route, served]; rfl)
    | some p =>
      refine ⟨some (.malformedService cause), ?_⟩
      unfold State.dispatch
      rw [recipient_of_service names route served]
      simp only [serviceMessage, serviceReply, h]
      rw [← served]
  | garbledReply tool cause names route h =>
    cases destined : m.tab? with
    | none => exact nobody (by unfold recipient; simp only [names, route, destined]; rfl)
    | some id =>
      cases registered : s.registered? id with
      | none => exact nobody (by unfold recipient; simp only [names, route, destined, registered]; rfl)
      | some t =>
        unfold State.dispatch
        rw [recipient_of_tab names route destined registered]
        dsimp only [tabMessage]
        cases known : s.tab? t with
        | none => exact ⟨none, rfl⟩
        | some tab => exact ⟨some (.malformedReply cause tab.id), by rw [h]; rfl⟩

/-! ### The service handler -/

theorem reached_blank {α : Type} (p : Pending α) (command : String) :
    p.blank.reached command = p.reached command := by
  unfold Pending.reached
  simp only [Pending.isLive_blank]
  rfl

/-- A response to a command answers the call that asked first of those who wait for it, if there is
one, and nobody else. -/
theorem Sound.serviceMessage_of_response (hs : s.Sound) (ho : s.Ordered) {p : Pending ServiceResponse}
    (served : s.service = some p) {response : ServiceResponse}
    (read : ServiceResponse.ofJson m.content = .ok response) :
    ∃ p' n, s.serviceMessage p m = ({ s with service := some p' } : State).logged n ∧
      (∀ command, command ≠ response.command → p'.queue command = p.queue command) ∧
      ((∃ c k, s.Foremost c .session response.command ∧ s.view.Waits c .session k ∧ n = none ∧
          ∀ j, p'.receiver? j = if j = k then some (.answered response) else p.receiver? j) ∨
        ((∀ x, ¬ s.Expects x .session response.command) ∧
          n = some (.unexpectedService response.command) ∧ ∀ j, p'.receiver? j = p.receiver? j)) := by
  have hboard : s.board .session = p.blank := by
    unfold board
    rw [served]
    rfl
  have hreached : (s.board .session).reached response.command = p.reached response.command := by
    rw [hboard, reached_blank]
  have heard := p.receiver?_complete response.command response
  have found := p.complete_fst response.command response
  have queues : ∀ command, command ≠ response.command →
      (p.complete response.command response).2.queue command = p.queue command := fun command hne => by
    rw [Pending.queue_complete, if_neg hne]
  unfold serviceMessage serviceReply
  rw [read]
  dsimp only
  cases hk : (p.reached response.command).head? with
  | none =>
    rw [hk] at found
    rw [show p.complete response.command response = (false, _) from Prod.ext found rfl]
    refine ⟨_, _, rfl, queues, Or.inr ⟨fun x hx => ?_, rfl, fun j => ?_⟩⟩
    · obtain ⟨_, _, _, h⟩ := hs.exists_head hx
      rw [hreached, hk] at h
      cases h
    · rw [heard, if_neg (by rw [hk]; exact nofun)]
  | some k =>
    rw [hk] at found
    rw [show p.complete response.command response = (true, _) from Prod.ext found rfl]
    have hhead : ((s.board .session).reached response.command).head? = some k := by
      rw [hreached, hk]
    obtain ⟨c, hw⟩ := hs.owned .session k _ (Pending.waiting_of_head_reached hhead)
    refine ⟨_, _, rfl, queues, Or.inl ⟨c, k, hs.foremost_of_head ho hw hhead, hw, rfl, fun j => ?_⟩⟩
    rw [heard, hk]
    by_cases hj : j = k
    · rw [if_pos (by rw [hj]), if_pos hj, hj, Pending.waiting_of_head_reached hk]
      rfl
    · rw [if_neg (fun h => hj (Option.some.inj h).symm), if_neg hj]

/-! ### One tab -/

/-- Every instance but one is left as it is. -/
structure Within (t : Instance) (s s' : State) : Prop where
  attached : ∀ u, u ≠ t → s'.isAttached u = s.isAttached u
  attaching : ∀ u, u ≠ t → s'.isAttaching u = s.isAttaching u
  listener : ∀ u, u ≠ t → s'.view.listener u = s.view.listener u
  awaits : ∀ u, u ≠ t → ∀ h r, s'.view.Awaits h u r ↔ s.view.Awaits h u r
  silent : ∃ news, s'.journal = s.journal ++ news ∧ ∀ u, u ≠ t → tabEvents u news = []

theorem Within.refl (t : Instance) (s : State) : Within t s s where
  attached _ _ := rfl
  attaching _ _ := rfl
  listener _ _ := rfl
  awaits _ _ _ _ := Iff.rfl
  silent := ⟨[], (List.append_nil _).symm, fun _ _ => rfl⟩

theorem Within.trans (h : Within t s s') (h' : Within t s' s'') : Within t s s'' where
  attached u hu := (h'.attached u hu).trans (h.attached u hu)
  attaching u hu := (h'.attaching u hu).trans (h.attaching u hu)
  listener u hu := (h'.listener u hu).trans (h.listener u hu)
  awaits u hu k r := (h'.awaits u hu k r).trans (h.awaits u hu k r)
  silent := by
    obtain ⟨news, hj, hn⟩ := h.silent
    obtain ⟨news', hj', hn'⟩ := h'.silent
    refine ⟨news ++ news', by rw [hj', hj, List.append_assoc], fun u hu => ?_⟩
    rw [tabEvents_append, hn u hu, hn' u hu]
    rfl

theorem Within.note (t : Instance) (s : State) {es : List Entry}
    (others : ∀ u, u ≠ t → tabEvents u es = []) : Within t s (s.note es) where
  attached _ _ := rfl
  attaching _ _ := rfl
  listener _ _ := rfl
  awaits _ _ _ _ := Iff.rfl
  silent := ⟨es, rfl, others⟩

theorem awaits_congr {v w : View} (calls : w.calls = v.calls)
    (board : w.board (.tab t) = v.board (.tab t)) (h : Handshake) (r : Receiver Unit) :
    w.Awaits h t r ↔ v.Awaits h t r := by
  unfold View.Awaits View.Waits
  rw [calls, board]

theorem Within.modifyTab (t : Instance) (s : State) (f : Tab → Tab) :
    Within t s (s.modifyTab t f) where
  attached u hu := by rw [isAttached_eq, field_modifyTab, if_neg (Ne.symm hu), ← isAttached_eq]
  attaching u hu := isAttaching_modifyTab s t f fun h => absurd h.symm hu
  listener u hu := by rw [listener_eq, field_modifyTab, if_neg (Ne.symm hu), ← listener_eq]
  awaits u hu h r := by
    refine awaits_congr (v := s.view) (w := (s.modifyTab t f).view) rfl ?_ h r
    show ((s.modifyTab t f).tabTable u).blank = (s.tabTable u).blank
    rw [tabTable_eq, field_modifyTab, if_neg (Ne.symm hu), ← tabTable_eq]
  silent := ⟨[], (List.append_nil _).symm, fun _ _ => rfl⟩

theorem Within.tell (t : Instance) (s : State) (what : Listener → TabEvent) :
    Within t s (s.tell t what) := by
  rw [tell_eq]
  exact .note t s fun u hu => by rw [tabEvents_told, if_neg (Ne.symm hu)]

theorem Within.detach (hs : s.Sound) (t : Instance) : Within t s (s.perform (.detach t)).1 where
  attached u hu := by rw [attached_detach, if_neg hu]
  attaching _ _ := isAttaching_perform s _
  listener u _ := by
    rw [view_detach]
    rfl
  awaits u hu h r := by
    rw [view_detach]
    exact hs.awaits_cutOff h r fun he => absurd he hu
  silent := by
    rcases journal_detach s t with hj | ⟨y, hj⟩
    · exact ⟨[], hj.trans (List.append_nil _).symm, fun _ _ => rfl⟩
    · exact ⟨_, hj, fun u hu => tabEvents_farewell_of_ne y hu⟩

theorem Sound.within_terminated (hs : s.Sound) (candid : ∀ v, s.Candid v) (tied : ∀ v, s.Tied v)
    (hr : s.registered? id = some t) : Within t s (s.terminated id) := by
  have h := hs.confined_terminated candid tied id
  have other : ∀ u, u ≠ t → s.registered? id ≠ some u := fun u hu he => by
    rw [hr] at he
    exact hu (Option.some.inj he).symm
  obtain ⟨_, ended⟩ := ended_fire s (.terminated id)
  obtain ⟨news, hj, hn⟩ := h.silent
  exact ⟨fun u hu => h.attached u (other u hu), fun u _ => h.attaching u,
    fun u _ => congrFun ended.listener u, fun u hu => h.awaits u (other u hu), news, hj,
    fun u hu => hn u (other u hu)⟩

/-! ### The session -/

/-- What neither a reply to a tab nor the end of an attachment touches: the settings, the calls and
their lock, the browser, the other service handler and the clock. -/
def apart (s : State) : State :=
  { s with tabs := [], registry := [], connection := {}, networkReady := false, service := none,
           journal := [] }

theorem apart_close (x : State) : x.close.1.apart = x.apart := by
  unfold State.close
  split
  · split <;> rfl
  · rfl

theorem apart_perform (x : State) (d : Duty) : (x.perform d).1.apart = x.apart := by
  cases d with
  | detach u =>
    unfold State.perform
    dsimp only
    split
    · rw [announceDetached_eq]
      rfl
    · rfl
  | terminate id =>
    rw [registry_terminate]
    rfl
  | closeIfIdle =>
    rw [perform_closeIfIdle]
    split
    · rfl
    · exact apart_close x

theorem apart_unwind (x : State) (duties : List Duty) : (x.unwind duties).apart = x.apart :=
  unwind_induction (P := fun y _ => y.apart = x.apart) (fun y d _ h => (apart_perform y d).trans h) x
    duties rfl

/-- The connection, the table of the service handler and the outcome of the version check are as they
were. -/
structure SameLink (s s' : State) : Prop where
  connection : s'.connection = s.connection
  service : s'.service = s.service
  ready : s'.networkReady = s.networkReady

/-- The connection is closed, and the session knows it. -/
structure Unlinked (s s' : State) : Prop where
  connected : s.connection.connected = true
  connection : s'.connection = s.connection.close
  service : s'.service = s.service.map Pending.failAll
  ready : s'.networkReady = false

theorem SameLink.trans (h : SameLink s s') (h' : SameLink s' s'') : SameLink s s'' :=
  ⟨h'.connection.trans h.connection, h'.service.trans h.service, h'.ready.trans h.ready⟩

theorem SameLink.unlinked (h : SameLink s s') (h' : Unlinked s' s'') : Unlinked s s'' where
  connected := h.connection ▸ h'.connected
  connection := h'.connection.trans (by rw [h.connection])
  service := h'.service.trans (by rw [h.service])
  ready := h'.ready

theorem Unlinked.same (h : Unlinked s s') (h' : SameLink s' s'') : Unlinked s s'' :=
  ⟨h.connected, h'.connection.trans h.connection, h'.service.trans h.service, h'.ready.trans h.ready⟩

theorem Unlinked.disconnected (h : Unlinked s s') : s'.connection.connected = false := by
  rw [h.connection]
  rfl

theorem sameLink_detach (x : State) (u : Instance) : SameLink x (x.perform (.detach u)).1 := by
  unfold State.perform
  dsimp only
  split
  · rw [announceDetached_eq]
    exact ⟨rfl, rfl, rfl⟩
  · exact ⟨rfl, rfl, rfl⟩

/-- A living session leaves its connection as it is or closes it. -/
theorem Attended.link_perform (ha : x.Attended) (alive : x.alive = true) (d : Duty) :
    SameLink x (x.perform d).1 ∨ Unlinked x (x.perform d).1 := by
  cases d with
  | detach u => exact Or.inl (sameLink_detach x u)
  | terminate id =>
    rw [registry_terminate]
    exact Or.inl ⟨rfl, rfl, rfl⟩
  | closeIfIdle =>
    rw [perform_closeIfIdle]
    split
    · exact Or.inl ⟨rfl, rfl, rfl⟩
    · cases hc : x.connection.connected with
      | true =>
        unfold State.close
        rw [if_pos hc, if_pos (ha.listens hc alive)]
        exact Or.inr ⟨hc, rfl, rfl, rfl⟩
      | false =>
        rw [close_of_disconnected hc]
        exact Or.inl ⟨rfl, rfl, rfl⟩

theorem Attended.link_unwind (ha : x.Attended) (hs : x.Sound) (alive : x.alive = true)
    (duties : List Duty) : SameLink x (x.unwind duties) ∨ Unlinked x (x.unwind duties) := by
  refine ha.unwind_induction (P := fun y _ => SameLink x y ∨ Unlinked x y) hs alive
    (fun y d rest _ hay alive hlink => ?_) (Or.inl ⟨rfl, rfl, rfl⟩)
  rcases hlink with same | unlinked
  · exact (hay.link_perform alive d).imp same.trans same.unlinked
  · -- a connection closes once
    refine Or.inr (unlinked.same ((hay.link_perform alive d).resolve_right fun again => ?_))
    have connected := again.connected
    rw [unlinked.disconnected] at connected
    cases connected

/-! ### The recipient of a tab's messages -/

/-- What a message for the tab of an id can do. -/
structure Contained (id : TabId) (t : Instance) (s s' : State) : Prop where
  within : Within t s s'
  apart : s'.apart = s.apart
  registry : s'.registry = s.registry ∨ s'.registry = s.registry.filter (·.1 != id)
  link : SameLink s s' ∨ Unlinked s s'

theorem Contained.noted (h : Within t s s') {es : List Entry} (tabs : List Tab)
    (he : s' = ({ s with tabs } : State).note es) : Contained id t s s' where
  within := h
  apart := by
    rw [he]
    rfl
  registry := Or.inl (by rw [he]; rfl)
  link := Or.inl (by rw [he]; exact ⟨rfl, rfl, rfl⟩)

theorem contained_handshakeReply (tab : Tab) (reply : DebuggerReply) :
    Contained id t s (s.handshakeReply t tab reply) := by
  have changed := fun p => Within.modifyTab t s fun tab => { tab with pending := p }
  unfold handshakeReply
  split
  · exact .noted (changed _) _ (note_nil _).symm
  · exact .noted ((changed _).trans (.note t _ fun _ _ => rfl)) _ rfl

/-- In a living session the end of an attachment takes the tab's place away as well. -/
theorem Sound.detached_eq (hs : s.Sound) (alive : s.alive = true) (attached : s.isAttached t = true)
    (hr : s.registered? id = some t) : s.detached t = (s.perform (.detach t)).1.terminated id := by
  unfold State.detached State.terminated
  rw [unwind, List.append_nil, duties_detach alive attached (View.Sound.own hs id t (mem_of_lookup hr))]

/-- The report that a registered tab is closed ends its attachment, and what that brings about stays
with the tab, its place and the connection. -/
theorem Sound.contained_detached (hs : s.Sound) (attended : s.Attended) (candid : ∀ v, s.Candid v)
    (tied : ∀ v, s.Tied v) (hr : s.registered? id = some t) : Contained id t s (s.detached t) := by
  have first := Within.detach hs t
  have hregistry := registry_detach s t
  have hlink := sameLink_detach s t
  cases reported : s.isAttached t && s.alive with
  | false =>
    have hnone : (s.perform (.detach t)).2 = [] := by
      simp only [State.perform]
      rcases Bool.and_eq_false_iff.mp reported with h | h
      · rw [if_neg (by rw [h]; exact Bool.false_ne_true)]
      · rw [h, if_neg Bool.false_ne_true]
        split <;> rfl
    unfold State.detached
    rw [unwind, List.append_nil, hnone, unwind]
    exact ⟨first, apart_perform s _, Or.inl hregistry, Or.inl hlink⟩
  | true =>
    obtain ⟨attached, alive⟩ := Bool.and_eq_true_iff.mp reported
    have hx := hs.perform (.detach t)
    rw [hs.detached_eq alive attached hr]
    have candid' : ∀ v, (s.perform (.detach t)).1.Candid v := fun v => candid_perform _ (candid v)
    have tied' : ∀ v, (s.perform (.detach t)).1.Tied v := fun v => hs.tied_perform _ (tied v)
    have registered : (s.perform (.detach t)).1.registered? id = some t := by
      unfold registered?
      rw [hregistry]
      exact hr
    have confined := hx.confined_terminated candid' tied' id
    refine ⟨first.trans (hx.within_terminated candid' tied' registered),
      (apart_unwind _ _).trans (apart_perform s _), Or.inr (confined.registry.trans (by rw [hregistry])), ?_⟩
    exact ((attended.perform hs _).link_unwind hx ((alive_perform s _).trans alive) _).imp hlink.trans
      hlink.unlinked

/-- What a message does that is handed to the tab registered under an id. -/
theorem Sound.contained_tabMessage (hs : s.Sound) (attended : s.Attended) (candid : ∀ v, s.Candid v)
    (tied : ∀ v, s.Tied v) (hr : s.registered? id = some t) (m : Message) :
    Contained id t s (s.tabMessage t m) := by
  have untouched : ∀ {es : List Entry}, (∀ u, u ≠ t → tabEvents u es = []) →
      Contained id t s (s.note es) := fun others => .noted (.note t s others) s.tabs rfl
  unfold State.tabMessage
  split
  · exact .noted (.refl t s) s.tabs (note_nil _).symm
  · next tab _ =>
    split
    · exact untouched fun _ _ => rfl
    · split
      · exact contained_handshakeReply tab _
      · exact contained_handshakeReply tab _
      · exact untouched fun u hu => by simp [tabEvents, Entry.event?, Ne.symm hu]
      · rw [tell_eq]
        exact untouched fun u hu => by rw [tabEvents_told, if_neg (Ne.symm hu)]
      · -- the listener hears that the tab is closed before the attachment ends
        have told := Within.tell t s .closed
        rw [tell_eq] at told ⊢
        have attended' : (s.note (s.told t .closed)).Attended := attended.of_eq rfl rfl rfl
        have h := Sound.contained_detached (s := s.note (s.told t .closed)) hs attended' candid tied hr
        have same : SameLink s (s.note (s.told t .closed)) := ⟨rfl, rfl, rfl⟩
        exact ⟨told.trans h.within, h.apart, h.registry, h.link.imp same.trans same.unlinked⟩
      · exact .noted (.refl t s) s.tabs (note_nil _).symm

/-- In every history, the hand-over of a message changes no more than its receiver owns.

A message that nobody receives, or that its receiver cannot read, leaves a log line at most. A response
changes the table of the session's service handler only, and there it answers the call that
asked first of those who wait for its command, if there is one. A message for a registered tab leaves
every other instance as it is and tells it nothing, even where the report that the tab is closed
makes the session close the connection; then the calls to its services fail, and the versions are not
known to agree any more. -/
theorem dispatch_stays_with_recipient (config : Config) (restartable : Bool)
    (rules : List (String × Json)) (actions : List Action) (m : Message) :
    let s := (initial config restartable rules).run actions
    let s' := s.dispatch m
    (s.Undeliverable m → ∃ n, s' = s.logged n) ∧
      (∀ tool p response, m.tool? = some tool → s.config.routes.get tool = some .service →
        s.service = some p → ServiceResponse.ofJson m.content = .ok response →
          ∃ p' n, s' = ({ s with service := some p' } : State).logged n ∧
            (∀ command, command ≠ response.command → p'.queue command = p.queue command) ∧
            ((∃ c k, s.Foremost c .session response.command ∧ s.view.Waits c .session k ∧ n = none ∧
                ∀ j, p'.receiver? j = if j = k then some (.answered response) else p.receiver? j) ∨
              ((∀ x, ¬ s.Expects x .session response.command) ∧
                n = some (.unexpectedService response.command) ∧
                ∀ j, p'.receiver? j = p.receiver? j))) ∧
      ∀ tool id t, m.tool? = some tool → s.config.routes.get tool = some .tab → m.tab? = some id →
        s.registered? id = some t → Contained id t s s' := by
  intro s s'
  have h₀ : (initial config restartable rules).Sound := sound_initial config restartable rules
  have hs : s.Sound := h₀.run actions
  have ho : s.Ordered := h₀.ordered_run (ordered_initial config restartable rules) actions
  have attended : s.Attended := (attended_initial config restartable rules).run h₀ actions
  have candid : ∀ v, s.Candid v := fun v =>
    h₀.candid_run actions (candid_initial config restartable rules v)
  have tied : ∀ v, s.Tied v := fun v => h₀.tied_run actions (tied_initial config restartable rules v)
  refine ⟨Undeliverable.dispatch, fun tool p response names route served read => ?_,
    fun tool id t names route destined registered => ?_⟩
  · have hd : s' = s.serviceMessage p m := by
      show s.dispatch m = _
      unfold State.dispatch
      rw [recipient_of_service names route served]
    rw [hd]
    exact hs.serviceMessage_of_response ho served read
  · have hd : s' = s.tabMessage t m := by
      show s.dispatch m = _
      unfold State.dispatch
      rw [recipient_of_tab names route destined registered]
    rw [hd]
    exact hs.contained_tabMessage attended candid tied registered m

/-- The report that the only attached tab is closed closes the connection, and the other tab, which is
still registered, hears nothing. -/
theorem closed_report_spares_other_tab :
    let s := (initial {} false obliging).run attaching
    let s' := s.dispatch closedReport
    (s.registered? 7 = some 0 ∧ s.isAttached 0 = true ∧ s.registered? 8 = some 1) ∧
      s.connection.connected = true ∧ s'.connection.connected = false ∧ s'.isAttached 0 = false ∧
      s'.registered? 8 = some 1 ∧
      ∃ news, s'.journal = s.journal ++ news ∧ tabEvents 1 news = [] := by
  intro s s'
  have place : s.registered? 7 = some 0 ∧ s.isAttached 0 = true ∧ s.registered? 8 = some 1 := by
    decide +kernel
  have contained : Contained 7 0 s s' :=
    (dispatch_stays_with_recipient {} false obliging attaching closedReport).2.2 .v8Debugger 7 0
      (by decide +kernel) (by decide +kernel) (by decide +kernel) place.1
  obtain ⟨news, hj, hn⟩ := contained.within.silent
  exact ⟨place, by decide +kernel, by decide +kernel, by decide +kernel, by decide +kernel, news, hj,
    hn 1 (by decide)⟩

end State
end RemoteDebug.Engine
