import RemoteDebug.Proofs.Conduct
import RemoteDebug.Proofs.Idleness
import RemoteDebug.Proofs.Listening
import RemoteDebug.Proofs.Schedule

/-! What the session knows of the versions.

A call that can go on goes on before anything else happens. So a connect call that is told a
version takes it up on the connection it came by, and as only one connect call is at work at a time, the
outcome stands for that connection: it is forgotten when the connection closes. -/
namespace RemoteDebug.Engine
open Protocol Wire

/-- The call that an action lets go on. -/
def Action.resumed? : Action → Option CallId
  | .resume id => some id
  | _ => none

theorem Action.resumed?_eq {a : Action} {id : CallId} : a.resumed? = some id ↔ a = .resume id := by
  cases a with
  | resume k =>
    show some k = some id ↔ _
    rw [Option.some.injEq, Action.resume.injEq]
  | _ => exact ⟨fun h => (Option.some_ne_none _ h.symm).elim, fun h => Action.noConfusion h⟩

namespace State

variable {s s' x : State} {c : Call} {a : Action}

/-- While a call can go on, nothing happens but that such a call goes on. -/
def Scheduled (s : State) (a : Action) : Prop :=
  (∃ c ∈ s.calls, s.runnable c = true ∧ a = .resume c.id) ∨ ∀ c ∈ s.calls, s.runnable c = false

instance (s : State) (a : Action) : Decidable (s.Scheduled a) :=
  decidable_of_iff ((∃ c ∈ s.calls, s.runnable c = true ∧ a.resumed? = some c.id) ∨
    ∀ c ∈ s.calls, s.runnable c = false) (by simp only [Action.resumed?_eq, Scheduled])

theorem Settled.scheduled (h : s.Settled) (a : Action) : s.Scheduled a := Or.inr (settled_iff.mp h).1

/-- A session settles by such actions. -/
theorem scheduled_settle (s : State) : ∃ actions, s.settle = s.run actions ∧ Lasts Scheduled s actions := by
  unfold settle
  generalize 4 * s.calls.length + s.connection.inbound.length = fuel
  induction fuel generalizing s with
  | zero => exact ⟨[], rfl, trivial⟩
  | succ fuel ih =>
    unfold settleIn
    cases hn : s.next? with
    | none => exact ⟨[], rfl, trivial⟩
    | some a =>
      obtain ⟨actions, hrun, hlasts⟩ := ih (s.act a)
      exact ⟨a :: actions, hrun, (permits_next hn).2, hlasts⟩

/-- A step of a session that has settled: something happens, and it settles again. -/
theorem Settled.scheduled_step (h : s.Settled) (a : Action) :
    ∃ actions, (s.act a).settle = s.run (a :: actions) ∧ Lasts Scheduled s (a :: actions) := by
  obtain ⟨actions, hrun, hlasts⟩ := scheduled_settle (s.act a)
  exact ⟨actions, hrun, h.scheduled a, hlasts⟩

/-! ### Replies are taken up at once -/

/-- No call of the session has heard a reply that it has not taken up. -/
def Hushed (s : State) : Prop := ∀ k, (s.view.board .session).receiver? k ≠ some (.answered ())

/-- A call of the session has heard a reply, and it is the one to go on, with the connection open. -/
structure Told (s : State) (c : Call) : Prop where
  waits : ∃ k, s.view.Waits c .session k ∧ (s.view.board .session).receiver? k = some (.answered ())
  connected : s.connection.connected = true
  only : ∀ x ∈ s.calls, s.runnable x = true → x = c

/-- A reply to a call of the session is not passed over. -/
def Prompt (s : State) : Prop := s.Hushed ∨ ∃ c, s.Told c

theorem serviceTable_of_session {r : Request} (hdesk : r.desk = .session) :
    s.serviceTable r = s.service.getD {} := by
  cases r <;> first | rfl | cases hdesk

theorem informed_of_answered {k : Ticket} (hw : s.view.Waits c .session k)
    (hr : (s.view.board .session).receiver? k = some (.answered ())) :
    ∃ response, s.Informed c response := by
  obtain ⟨_, hdesk, d, hp⟩ := hw
  change (s.service.getD {}).blank.receiver? k = _ at hr
  rw [Pending.receiver?_blank] at hr
  obtain ⟨r, hr, hblank⟩ := Option.map_eq_some_iff.mp hr
  cases r with
  | answered response =>
    refine ⟨response, k, d, hp, ?_⟩
    rw [serviceTable_of_session hdesk]
    exact hr
  | _ => cases hblank

theorem Prompt.connected_of_informed (h : s.Prompt) (hdesk : c.request.desk = .session)
    {response : ServiceResponse} (informed : s.Informed c response) : s.connection.connected = true := by
  obtain ⟨k, _, _, hr⟩ := informed
  have answered : (s.view.board .session).receiver? k = some (.answered ()) := by
    show (s.service.getD {}).blank.receiver? k = _
    rw [Pending.receiver?_blank, ← serviceTable_of_session hdesk, hr]
    rfl
  exact h.elim (fun hushed => absurd answered (hushed k)) fun ⟨_, told⟩ => told.connected

theorem Prompt.note (h : s.Prompt) (es : List Entry) : (s.note es).Prompt :=
  h.imp id fun ⟨c, ht⟩ => ⟨c, ht.waits, ht.connected, ht.only⟩

theorem Told.runnable (h : s.Told c) (hs : s.Sound) : s.runnable c = true := by
  obtain ⟨k, hw, hr⟩ := h.waits
  exact hs.runnable_of_heard hw hr fun he => by cases he

theorem Prompt.hushed (h : s.Prompt) (hs : s.Sound) (still : ∀ c ∈ s.calls, s.runnable c = false) :
    s.Hushed := by
  refine h.resolve_right ?_
  rintro ⟨c, ht⟩
  obtain ⟨_, hw, _⟩ := ht.waits
  have hr := ht.runnable hs
  rw [still c hw.1] at hr
  cases hr

theorem ReplyFreeMove.hushed (hu : ReplyFreeMove s s') (hs : s.Sound) (h : s.Hushed) : s'.Hushed := by
  intro k hk
  rcases hu.receiver hs hk with hold | ⟨hr, _⟩ | hr
  · exact h k hold
  · cases hr
  · cases hr

theorem ReplyFreeMoves.hushed (hu : ReplyFreeMoves s s') (hs : s.Sound) (h : s.Hushed) : s'.Hushed := by
  induction hu with
  | refl => exact h
  | tail steps step ih => exact step.hushed (ReplyFreeMoves.sound steps hs) ih

theorem Hushed.perform (h : s.Hushed) (hs : s.Sound) (d : Duty) : (s.perform d).1.Hushed := by
  intro k hk
  rcases hs.receiver_perform d hk with ⟨hold, _⟩ | hr
  · exact h k hold
  · cases hr

theorem Hushed.unwind (h : s.Hushed) (hs : s.Sound) (duties : List Duty) : (s.unwind duties).Hushed :=
  (unwind_induction (P := fun x _ => x.Sound ∧ x.Hushed)
    (fun _ d _ hx => ⟨hx.1.perform d, hx.2.perform hx.1 d⟩) s duties ⟨hs, h⟩).2

theorem Hushed.fire (h : s.Hushed) (hs : s.Sound) (k : Trigger) : (s.fire k).Hushed := by
  cases k with
  | close =>
    refine Hushed.unwind (fun k hk => ?_) hs.close _
    rcases hs.receiver_close hk with hold | hr
    · exact h k hold
    · cases hr
  | detached u => exact h.unwind hs _
  | terminated id => exact h.unwind hs _

/-- An end leaves no reply that is not taken up. -/
theorem Hushed.act_of_occasion (h : s.Hushed) (hs : s.Sound) {o : Occasion}
    (ho : s.occasion? a = some o) : (s.act a).Hushed := by
  have hbefore := replyFree_before ho
  rw [State.act_of_occasion ho]
  exact (hbefore.hushed hs h).fire (hbefore.sound hs) o.trigger

theorem Hushed.resume (h : s.Hushed) (hs : s.Sound) (hc : c ∈ s.calls) : (s.act (.resume c.id)).Hushed := by
  cases ho : s.occasion? (.resume c.id) with
  | some o => exact h.act_of_occasion hs ho
  | none =>
    have quiet : s.ousting? c = none := by
      change (s.call? c.id).bind s.ousting? = none at ho
      rwa [hs.call?_eq hc] at ho
    simp only [State.act, hs.call?_eq hc]
    exact (hs.changes_resume hc quiet).replyFree.hushed hs h

/-- The reply that comes in is handed to a call that waits on an open connection. -/
theorem Answer.prompt {d : Desk} {command : String} (ha : Answer s d command s') (hs : s.Sound)
    (attended : s.Attended) (h : s.Hushed) (still : ∀ c ∈ s.calls, s.runnable c = false) : s'.Prompt := by
  by_cases hushed : s'.Hushed
  · exact Or.inl hushed
  obtain ⟨k, hk⟩ := not_forall.mp hushed
  rw [not_not] at hk
  obtain ⟨c, hw⟩ := (ha.sound hs).owned .session k _ hk
  rcases ha.receiver hk with hold | ⟨_, rfl, hhead⟩
  · exact absurd hold (h k)
  · have hwaiting : (s.view.board .session).receiver? k = some .waiting :=
      Pending.waiting_of_head_reached hhead
    refine Or.inr ⟨c, ⟨k, hw, hk⟩, ha.linked.lasts (attended.lively k hwaiting), ?_⟩
    exact ha.only hs still hw hk fun he => by cases he

theorem Brings.prompt {d : Desk} {reply : Option String} (hb : Brings s d reply s') (hs : s.Sound)
    (attended : s.Attended) (h : s.Hushed) (still : ∀ c ∈ s.calls, s.runnable c = false) : s'.Prompt := by
  obtain ⟨s₁, es, _, rfl, hr⟩ := hb
  refine Prompt.note ?_ es
  cases reply with
  | none =>
    obtain rfl : s₁ = s := hr
    exact Or.inl h
  | some command => exact Answer.prompt hr hs attended h still

theorem Hushed.prompt_deliver {m : Message} (h : s.Hushed) (hs : s.Sound) (attended : s.Attended)
    (still : ∀ c ∈ s.calls, s.runnable c = false) (quiet : s.delivering? m = none) :
    (s.deliver m).Prompt := by
  by_cases hl : s.listens = true
  · rcases hs.brings_deliver hl quiet with ⟨d, _, hb, _⟩ | ⟨_, n, he⟩
    · exact hb.prompt hs attended h still
    · rw [he, logged_eq]
      exact Prompt.note (Or.inl h) _
  · unfold deliver
    rw [if_neg hl]
    exact Or.inl h

/-- While no call can go on, whatever happens brings one reply at most. -/
theorem Hushed.prompt_act (h : s.Hushed) (hs : s.Sound) (attended : s.Attended)
    (still : ∀ c ∈ s.calls, s.runnable c = false) : (s.act a).Prompt := by
  cases ho : s.occasion? a with
  | some o => exact Or.inl (h.act_of_occasion hs ho)
  | none =>
    cases a with
    | receive =>
      simp only [occasion?] at ho
      simp only [State.act, receive]
      split
      · exact Or.inl h
      · next m rest hi =>
        simp only [hi] at ho
        have hw := replyFree_popped s rest
        exact (hw.hushed hs h).prompt_deliver (hw.sound hs) (hw.attended hs attended) still ho
    | deliver m => exact h.prompt_deliver hs attended still ho
    | separateMessage m => exact (brings_separateMessage s m).prompt hs attended h still
    | handle t m =>
      cases ht : s.tab? t with
      | none =>
        simp only [State.act, State.tabMessage, ht]
        exact Or.inl h
      | some tab => exact (brings_tabMessage (by rw [ht]; rfl) ho).prompt hs attended h still
    | dropBrowser => exact Or.inl h
    | _ => exact Or.inl ((hs.replyFree_act rfl ho).hushed hs h)

/-- The call that was told goes on, and with it the reply is taken up. -/
theorem Told.hushed_act (h : s.Told c) (hs : s.Sound) : (s.act (.resume c.id)).Hushed := by
  obtain ⟨k₀, hw₀, hr₀⟩ := h.waits
  obtain ⟨response, informed⟩ := informed_of_answered hw₀ hr₀
  have service : c.request.tab? = none := by
    have hdesk := hw₀.2.1
    cases hq : c.request <;> rw [hq] at hdesk <;> first | rfl | cases hdesk
  obtain ⟨k, d, hp, hact⟩ := hs.act_of_informed hw₀.1 service informed
  have hw : s.view.Waits c c.request.desk k := ⟨hw₀.1, rfl, d, hp⟩
  have hquit : (s.quit c k).Hushed := by
    intro k' hk'
    obtain ⟨x, hx⟩ := (hs.quit hw).owned .session k' _ hk'
    rw [view_quit s c k (hs.hasTab hw.1)] at hx hk'
    obtain ⟨hx, hne⟩ := View.waits_quit.mp hx
    have hgo := hs.runnable_of_heard hx (View.receiver_quit hk') fun he => by cases he
    exact hne (congrArg Call.id (h.only x hx.1 hgo))
  rw [hact]
  exact (conclusions_serviceEnds _ service _).changes.replyFree.hushed (hs.quit hw) hquit

theorem Prompt.act (h : s.Prompt) (hs : s.Sound) (attended : s.Attended)
    (scheduled : s.Scheduled a) : (s.act a).Prompt := by
  rcases scheduled with ⟨c, hc, hgo, rfl⟩ | still
  · rcases h with hushed | ⟨x, ht⟩
    · exact Or.inl (hushed.resume hs hc)
    · obtain rfl := ht.only c hc hgo
      exact Or.inl (ht.hushed_act hs)
  · exact (h.hushed hs still).prompt_act hs attended still

/-! ### A connection that is gone -/

theorem Sound.alive_of_act (hs : s.Sound) (h : (s.act a).alive = true) : s.alive = true := by
  rcases Bool.or_eq_true_iff.mp h with hb | hany
  · refine alive_of_browser ?_
    by_cases hd : a = .dropBrowser
    · subst hd
      cases hb
    · rwa [hs.browser_act hd] at hb
  · obtain ⟨x, hx, holds⟩ := List.any_eq_true.mp hany
    rcases hs.mem_act hx with hold | ⟨_, can⟩ | ⟨c, hc, _, _, hreq⟩
    · exact alive_of_mem hold holds
    · unfold State.canStart at can
      rw [holds, Bool.and_eq_true] at can
      exact alive_of_browser can.2
    · exact alive_of_mem hc (hreq ▸ holds)

/-- The versions are known to agree only where there is a connection. -/
def Vouched (s : State) : Prop := s.networkReady = true → s.connection.connected = true

theorem Level.vouched (h : Level s s') (hv : s.Vouched)
    (lasts : s.connection.connected = true → s'.connection.connected = true) : s'.Vouched := by
  intro hr
  rcases h.ready with ⟨ready, connected⟩ | ⟨gone, ready⟩
  · rw [connected]
    exact hv (ready ▸ hr)
  · exact lasts (hv (ready hr))

/-- A session that hears the connection close does not rely on it any more. -/
theorem Vouched.close (h : s.Vouched) (attended : s.Attended) (alive : s.alive = true) :
    s.close.1.Vouched := by
  cases hc : s.connection.connected with
  | false =>
    rw [close_of_disconnected hc]
    exact h
  | true =>
    intro hr
    unfold State.close at hr
    rw [if_pos hc, if_pos (attended.listens hc alive)] at hr
    cases hr

theorem Vouched.perform (h : s.Vouched) (attended : s.Attended) (alive : s.alive = true) (d : Duty) :
    (s.perform d).1.Vouched := by
  cases d with
  | detach u =>
    refine (Level.perform s _).vouched h fun hc => ?_
    rwa [connection_detach]
  | terminate id =>
    refine (Level.perform s _).vouched h fun hc => ?_
    rwa [registry_terminate]
  | closeIfIdle =>
    rw [perform_closeIfIdle]
    split
    · exact h
    · exact h.close attended alive

theorem Vouched.unwind (h : s.Vouched) (hs : s.Sound) (attended : s.Attended) (alive : s.alive = true)
    (duties : List Duty) : (s.unwind duties).Vouched :=
  attended.unwind_induction (P := fun x _ => x.Vouched) hs alive
    (fun _ d _ _ hx alive hv => hv.perform hx alive d) h

theorem alive_fire (s : State) (k : Trigger) : (s.fire k).alive = s.alive := by
  unfold State.alive
  rw [browser_fire, calls_fire]

theorem Vouched.fire (h : s.Vouched) (hs : s.Sound) (attended : s.Attended) (alive : s.alive = true)
    (k : Trigger) : (s.fire k).Vouched := by
  cases k with
  | close =>
    exact (h.close attended alive).unwind hs.close (attended.close hs) ((alive_close s).trans alive) _
  | detached u => exact h.unwind hs attended alive _
  | terminated id => exact h.unwind hs attended alive _

theorem ready_before {o : Occasion} (h : s.occasion? a = some o) :
    o.before.networkReady = s.networkReady := by
  have told : ∀ (y : State) t, (y.tell t .closed).networkReady = y.networkReady := by
    intro y t
    rw [tell_eq]
    rfl
  cases arises h with
  | handled t m => exact told s t
  | delivered t m => exact told s t
  | received t rest => exact told _ t
  | granted c k d t mem waits about => exact ready_quit s c k
  | _ => rfl

/-- As long as no connect call goes on, the outcome lasts no longer than the connection. -/
theorem Vouched.act (h : s.Vouched) (hs : s.Sound) (attended : s.Attended)
    (alive : (s.act a).alive = true)
    (other : ∀ c ∈ s.calls, c.request = .connect → a ≠ .resume c.id) : (s.act a).Vouched := by
  cases ho : s.occasion? a with
  | none => exact (Level.act s other).vouched h fun hc => (hs.endFree_act ho).lasts hs hc
  | some o =>
    have hbefore := replyFree_before ho
    obtain ⟨inbound, hconnection⟩ := connection_before ho
    have hv : o.before.Vouched := by
      unfold Vouched
      rw [ready_before ho, hconnection]
      exact h
    rw [State.act_of_occasion ho] at alive ⊢
    exact hv.fire (hbefore.sound hs) (hbefore.bypassFree.endFree.moves.attended hs attended)
      ((alive_fire _ o.trigger).symm.trans alive) o.trigger

/-! ### A connect call goes on -/

/-- The server has told a version, and the client goes together with it. -/
def agrees (s : State) (response : ServiceResponse) : Bool :=
  response.result.isOk && response.version?.any s.config.acceptsServer

/-- A call has failed, if it came out at all, and no more is known of the versions. -/
structure Fails (c : Call) (s s' : State) : Prop where
  ready : s'.networkReady = s.networkReady
  news : ∃ news, s'.journal = s.journal ++ news ∧
    ∀ r, .finished c.id .connect r ∈ news → ∃ e, r = .done (.error e)

theorem Fails.of_eq (ready : s'.networkReady = s.networkReady) (journal : s'.journal = s.journal) :
    Fails c s s' := ⟨ready, [], journal.trans (List.append_nil _).symm, fun _ hr => by cases hr⟩

theorem Fails.trans (h : Fails c s x) (h' : Fails c x s') : Fails c s s' := by
  obtain ⟨news, hj, hn⟩ := h.news
  obtain ⟨news', hj', hn'⟩ := h'.news
  refine ⟨h'.ready.trans h.ready, news ++ news', by rw [hj', hj, List.append_assoc], fun r hr => ?_⟩
  exact (List.mem_append.mp hr).elim (hn r) (hn' r)

theorem Fails.report (s : State) (e : EngineError) : Fails c s (s.report c (.done (.error e))) :=
  ⟨rfl, _, rfl, fun _ hr => ⟨e, (Entry.finished.inj (List.mem_singleton.mp hr)).2.2⟩⟩

theorem Fails.quit (s : State) (c : Call) (k : Ticket) : Fails c s (s.quit c k) :=
  .of_eq (ready_quit s c k) (journal_quit s c k)

theorem Fails.log (s : State) (notice : Notice) : Fails c s (s.log notice) :=
  ⟨rfl, _, rfl, fun _ hr => by cases List.mem_singleton.mp hr⟩

theorem Fails.finish (s : State) (c : Call) (e : EngineError) :
    Fails c s (s.finish c (.done (.error e))) :=
  Fails.trans (x := s.retire c) (.of_eq (ready_changeLock _ _ _) (journal_retire s c)) (.report _ e)

theorem Fails.asked (s : State) (c : Call) (m : Message) : Fails c s (s.asked c m) := by
  refine ⟨?_, _, journal_asked s c m, fun r hr => ?_⟩
  · unfold State.asked
    rw [send_eq]
    show (s.enter c).networkReady = _
    unfold State.enter
    cases c.request <;> rfl
  · unfold State.posted at hr
    split at hr
    · cases List.mem_singleton.mp hr
    · cases hr

/-- How the wait of a connect call ends. -/
theorem poll_connect (hr : c.request = .connect) (k : Ticket) (d : Nat) :
    (∃ response, (s.serviceTable c.request).receiver? k = some (.answered response) ∧
        s.poll c k d = (s.quit c k).connectEnds c response) ∨
      (∃ e, s.poll c k d = (s.quit c k).report c (.done (.error (.connection e)))) ∨ s.poll c k d = s := by
  rw [poll_of_free (by rw [hr]; rfl)]
  cases hw : s.waitEnd? (s.serviceTable c.request) c.request k d with
  | none => exact Or.inr (Or.inr rfl)
  | some r =>
    cases r with
    | error e =>
      refine Or.inr (Or.inl ⟨e, ?_⟩)
      simp only [Option.map_some, Option.getD_some, State.serviceEnds, hr]
    | ok response =>
      refine Or.inl ⟨response, waitEnd?_ok.mp hw, ?_⟩
      simp only [Option.map_some, Option.getD_some, State.serviceEnds, hr]

/-- A connect call that asks for the version knows no more by then. -/
theorem Sound.fails_ask (hs : s.Sound) (ready : s.Ready c) (hr : c.request = .connect) (m : Message) :
    Fails c s (s.ask c m) := by
  have hasked := Fails.asked s c m
  cases hsent : ((s.enter c).send (some c.id) m).2 with
  | ok u =>
    rw [ask_of_ok hsent]
    rcases poll_connect hr (s.nextTicket c.request) (s.deadlineOf c.request) (s := s.asked c m) with
      ⟨response, hheard, _⟩ | ⟨e, he⟩ | he
    · -- nobody has answered yet
      rw [hs.waiting_at_service ready m (by rw [hr]; rfl)] at hheard
      cases hheard
    · rw [he]
      exact (hasked.trans (.quit _ c _)).trans (.report _ _)
    · rw [he]
      exact hasked
  | error e =>
    rw [ask_of_error hsent]
    unfold State.sendFails
    rw [hr]
    simp only [Request.tab?, State.serviceEnds, hr]
    exact (hasked.trans (.quit _ c _)).trans (.report _ _)

theorem link_ensureService (s : State) :
    s.ensureService.networkReady = s.networkReady ∧
      s.ensureService.connection.connected = s.connection.connected ∧
      s.ensureService.connection.starts = s.connection.starts := by
  unfold State.ensureService
  split <;> exact ⟨rfl, rfl, rfl⟩

/-- A connect call that does not find the outcome asks for it or fails. -/
theorem Sound.fails_beginConnect (hs : s.Sound) (p : s.Poised c) (hr : c.request = .connect)
    (unready : ¬ (s.connection.connected = true ∧ s.networkReady = true)) :
    Fails c s (s.beginConnect c) := by
  obtain ⟨hready, hconnected, _⟩ := link_ensureService s
  have hserved : Fails c s s.ensureService := .of_eq hready (journal_ensureService s)
  have hs' : s.ensureService.Sound := (Change.served (s := s)).sound hs
  have hservice := isSome_service s
  unfold State.beginConnect
  dsimp only
  rw [hready, hconnected, if_neg (by rwa [Bool.and_eq_true])]
  split
  · exact hserved.trans (hs'.fails_ask (p.served.ready hs' (by rw [hr]; exact hservice)) hr _)
  · have hstart := change_startConnection s.ensureService hservice
    have hs'' := hstart.sound hs'
    have p' : s.ensureService.startConnection.1.Poised c := p.served.of_view rfl rfl
    have hstarted : Fails c s s.ensureService.startConnection.1 := hserved.trans (.of_eq rfl rfl)
    have hservice' : s.ensureService.startConnection.1.service.isSome = true := hservice
    split
    · next h =>
      rw [h] at hs'' p' hstarted hservice'
      exact hstarted.trans (hs''.fails_ask (p'.ready hs'' (by rw [hr]; exact hservice')) hr _)
    · next h =>
      rw [h] at hstarted
      exact hstarted.trans (.finish _ c _)

theorem connectEnds_of_agrees {response : ServiceResponse} (h : s.agrees response = true) :
    s.connectEnds c response = { s with networkReady := true }.report c (.done (.ok ())) := by
  obtain ⟨ok, accepts⟩ := (Bool.and_eq_true _ _).mp h
  unfold State.connectEnds State.versionIn
  rw [if_pos ok]
  dsimp only
  rw [if_pos accepts]

theorem fails_connectEnds {response : ServiceResponse} (h : s.agrees response = false) :
    Fails c { s with networkReady := false } (s.connectEnds c response) := by
  unfold agrees at h
  unfold State.connectEnds State.versionIn
  cases ok : response.result.isOk with
  | true =>
    rw [ok, Bool.true_and] at h
    rw [if_pos rfl]
    dsimp only
    rw [h, if_neg Bool.false_ne_true]
    exact (Fails.log _ _).trans (.report _ _)
  | false =>
    rw [if_neg Bool.false_ne_true]
    dsimp only [Option.any]
    rw [if_neg Bool.false_ne_true]
    exact ((Fails.log _ (.versionRefused response.result)).trans (.log _ _)).trans (.report _ _)

theorem agrees_quit {response : ServiceResponse} (k : Ticket) :
    (s.quit c k).agrees response = s.agrees response := by
  unfold agrees State.quit State.retire
  cases c.request <;> rfl

/-- What a connect call comes to when it goes on. -/
inductive Outcome (s : State) (c : Call) (s' : State) : Prop
  /-- Nothing is asked: it waits on, or the versions are known to agree. -/
  | stood (starts : s'.connection.starts = s.connection.starts)
      (connected : s'.connection.connected = s.connection.connected)
      (ready : s'.networkReady = s.networkReady)
      (waits : ∀ x k, s'.view.Waits x .session k → s.view.Waits x .session k)
      (news : ∃ news, s'.journal = s.journal ++ news ∧ asks news = [] ∧
        ∀ r, .finished c.id .connect r ∈ news → r = .done (.ok ()) ∧ s.networkReady = true)
  /-- The version is asked for, or the call fails. -/
  | failed (before : s.networkReady = false) (fails : Fails c s s')
  | agreed (k : Ticket) (waits : s.view.Waits c .session k) (response : ServiceResponse)
      (informed : s.Informed c response) (agrees : s.agrees response = true)
      (ends : s' = { s.quit c k with networkReady := true }.report c (.done (.ok ())))

theorem Outcome.still (s : State) (c : Call) : s.Outcome c s :=
  .stood rfl rfl rfl (fun _ _ hw => hw) ⟨[], (List.append_nil _).symm, rfl, fun _ hm => by cases hm⟩

theorem outcome_queued (hr : c.request = .connect) (fresh : c.point = .fresh) :
    s.Outcome c ((s.lined c).setPoint c.id .queued) := by
  rw [lined, if_pos fresh, hr]
  refine .stood rfl rfl rfl (fun y k hw => ?_) ⟨[], (List.append_nil _).symm, rfl, fun _ hm => by cases hm⟩
  -- the call is queued now, the others are as they were
  obtain ⟨hy, hdesk, d, hp⟩ := hw
  obtain ⟨z, hz, rfl⟩ := List.mem_map.mp hy
  split at hp
  · cases hp
  · next hne =>
    rw [if_neg hne] at hdesk ⊢
    exact ⟨hz, hdesk, d, hp⟩

/-- The versions are known to agree: the call ends well at once. -/
theorem outcome_rest (hr : c.request = .connect) (connected : s.connection.connected = true)
    (ready : s.networkReady = true) : s.Outcome c (s.beginConnect c) := by
  obtain ⟨hready, hconnected, hstarts⟩ := link_ensureService s
  have hfinish : s.beginConnect c = s.ensureService.finish c (.done (.ok ())) := by
    unfold State.beginConnect
    dsimp only
    rw [hready, hconnected, connected, ready, Bool.and_self, if_pos rfl]
  have hlink : (s.ensureService.finish c (.done (.ok ()))).connection = s.ensureService.connection :=
    connection_retire _ c
  rw [hfinish]
  refine .stood (by rw [hlink, hstarts]) (by rw [hlink, hconnected])
    ((ready_changeLock _ _ _).trans hready) (fun y k hw => ⟨?_, hw.2⟩)
    ⟨[.finished c.id .connect (.done (.ok ()))], ?_, rfl, fun r hm => ?_⟩
  · have hy : y ∈ s.ensureService.view.calls := (mem_of_mem_retire hw.1).1
    rwa [view_ensureService] at hy
  · show (s.ensureService.retire c).journal ++ [.finished c.id c.request _] = _
    rw [journal_retire, journal_ensureService, hr]
  · exact ⟨(Entry.finished.inj (List.mem_singleton.mp hm)).2.2, ready⟩

theorem Sound.outcome_beginConnect (hs : s.Sound) (p : s.Poised c) (hr : c.request = .connect)
    (vouched : s.Vouched) : s.Outcome c (s.beginConnect c) := by
  by_cases hgo : s.connection.connected = true ∧ s.networkReady = true
  · exact outcome_rest hr hgo.1 hgo.2
  · have before : s.networkReady = false := Bool.eq_false_iff.mpr fun h => hgo ⟨vouched h, h⟩
    exact .failed before (hs.fails_beginConnect p hr hgo)

theorem outcome_poll {k : Ticket} {d : Nat} (hc : c ∈ s.calls) (hp : c.point = .awaiting k d)
    (hr : c.request = .connect) (before : s.networkReady = false) : s.Outcome c (s.poll c k d) := by
  rcases poll_connect hr k d (s := s) with ⟨response, hheard, he⟩ | ⟨e, he⟩ | he
  · rw [he]
    cases h : (s.quit c k).agrees response with
    | true =>
      refine .agreed k ⟨hc, by rw [hr]; rfl, d, hp⟩ response ⟨k, d, hp, hheard⟩ ?_
        (connectEnds_of_agrees h)
      rwa [agrees_quit] at h
    | false =>
      refine .failed before (Fails.trans (x := { s.quit c k with networkReady := false }) ?_
        (fails_connectEnds h))
      exact .of_eq before.symm (journal_quit s c k)
  · rw [he]
    exact .failed before (.trans (.quit s c k) (.report _ _))
  · rw [he]
    exact .still s c

/-- A call that begins has taken its place in the queue before. -/
theorem Outcome.of_lined (h : (s.lined c).Outcome c s') (hr : c.request = .connect) (idle : c.Idle) :
    s.Outcome c s' := by
  unfold State.lined at h
  split at h
  · rw [hr] at h
    cases h with
    | stood starts connected ready waits news => exact .stood starts connected ready waits news
    | failed before fails => exact .failed before ⟨fails.ready, fails.news⟩
    | agreed k waits response informed agrees ends =>
      obtain ⟨_, _, d, hp⟩ := waits
      exact absurd hp (idle k d)
  · exact h

theorem vouched_lined (vouched : s.Vouched) (c : Call) : (s.lined c).Vouched := by
  have hlined := Inward.lined s c
  unfold Vouched
  rw [hlined.ready, hlined.connection]
  exact vouched

/-- As long as the outcome stands for a connection, and is not known while a connect call waits, a connect
call comes to one of these. -/
theorem Sound.outcome (hs : s.Sound) (vouched : s.Vouched)
    (undecided : ∀ k, s.view.Waits c .session k → s.networkReady = false) (hc : c ∈ s.calls)
    (hr : c.request = .connect) : s.Outcome c (s.act (.resume c.id)) := by
  simp only [State.act, hs.call?_eq hc]
  by_cases admits : s.Admits c
  · have p := hs.poised_of_admits hc admits
    have hbegin := (hs.lined hc).outcome_beginConnect p hr (vouched_lined vouched c)
    rw [resume_of_admits admits]
    unfold State.begin
    rw [hr]
    exact hbegin.of_lined hr p.idle
  · rcases resume_of_not_admits admits with ⟨_, he⟩ | ⟨fresh, he⟩ | ⟨k, d, hp, he⟩ <;> rw [he]
    · exact .still s c
    · exact outcome_queued hr fresh
    · exact outcome_poll hc hp hr (undecided k ⟨hc, by rw [hr]; rfl, d, hp⟩)

theorem Outcome.vouched (h : s.Outcome c s') (hr : c.request = .connect) (prompt : s.Prompt)
    (hv : s.Vouched) : s'.Vouched := by
  cases h with
  | stood starts connected ready waits news =>
    unfold Vouched
    rw [ready, connected]
    exact hv
  | failed before fails =>
    intro hready
    rw [fails.ready, before] at hready
    cases hready
  | agreed k waits response informed agrees ends =>
    intro _
    rw [ends]
    show (s.quit c k).connection.connected = true
    rw [connection_quit]
    exact prompt.connected_of_informed (by rw [hr]; rfl) informed

/-- No connect call waits while the versions are known to agree. -/
def Undecided (s : State) : Prop :=
  ∀ c k, c.request = .connect → s.view.Waits c .session k → s.networkReady = false

theorem Outcome.undecided (h : s.Outcome c s') (hs : s.Sound) (hc : c ∈ s.calls)
    (hr : c.request = .connect) (hu : s.Undecided) : s'.Undecided := by
  intro x k hx hw
  cases h with
  | stood starts connected ready waits news => exact ready.trans (hu x k hx (waits x k hw))
  | failed before fails => exact fails.ready.trans before
  | agreed k' waits response informed agrees ends =>
    -- only one connect call is at work
    rw [ends] at hw
    change (s.quit c k').view.Waits x .session k at hw
    rw [view_quit s c k' (hs.hasTab hc)] at hw
    obtain ⟨hw, hne⟩ := View.waits_quit.mp hw
    have hsame := View.Sound.exclusive (n := .connection) hs hw.1 hc (hs.holder x _ k hw)
      (hs.holder c _ k' waits) (by rw [hx]; rfl) (by rw [hr]; rfl)
    exact absurd (congrArg Call.id hsame) hne

theorem Level.undecided (h : Level s (s.act a)) (hs : s.Sound) (hu : s.Undecided)
    (other : ∀ c ∈ s.calls, c.request = .connect → a ≠ .resume c.id) : (s.act a).Undecided := by
  intro x k hx hw
  rcases hs.waits_act hw with hw | ⟨c, hc, ha, _, hreq⟩
  · have before := hu x k hx hw
    rcases h.ready with ⟨ready, _⟩ | ⟨_, ready⟩
    · exact ready.trans before
    · refine Bool.eq_false_iff.mpr fun hready => ?_
      rw [ready hready] at before
      cases before
  · exact absurd ha (other c hc (hreq ▸ hx))

/-! ### Histories -/

/-- What holds of the versions as long as whoever can go on goes on. -/
structure Negotiated (s : State) : Prop where
  attended : s.Attended
  prompt : s.Prompt
  vouched : s.alive = true → s.Vouched
  undecided : s.Undecided

theorem Negotiated.outcome (h : s.Negotiated) (hs : s.Sound) (hc : c ∈ s.calls)
    (hr : c.request = .connect) : s.Outcome c (s.act (.resume c.id)) :=
  hs.outcome (h.vouched (alive_of_mem hc (by rw [hr]; rfl))) (fun k => h.undecided c k hr) hc hr

theorem Negotiated.act (h : s.Negotiated) (hs : s.Sound) (scheduled : s.Scheduled a) :
    (s.act a).Negotiated := by
  refine ⟨h.attended.act hs a, h.prompt.act hs h.attended scheduled, fun alive => ?_, ?_⟩
  · have hv := h.vouched (hs.alive_of_act alive)
    by_cases hconnect : ∃ c ∈ s.calls, c.request = .connect ∧ a = .resume c.id
    · obtain ⟨c, hc, hr, rfl⟩ := hconnect
      exact (h.outcome hs hc hr).vouched hr h.prompt hv
    · exact hv.act hs h.attended alive fun c hc hr ha => hconnect ⟨c, hc, hr, ha⟩
  · by_cases hconnect : ∃ c ∈ s.calls, c.request = .connect ∧ a = .resume c.id
    · obtain ⟨c, hc, hr, rfl⟩ := hconnect
      exact (h.outcome hs hc hr).undecided hs hc hr h.undecided
    · have other : ∀ c ∈ s.calls, c.request = .connect → a ≠ .resume c.id :=
        fun c hc hr ha => hconnect ⟨c, hc, hr, ha⟩
      exact (Level.act s other).undecided hs h.undecided other

theorem Negotiated.run (h : s.Negotiated) (hs : s.Sound) {actions : List Action}
    (scheduled : Lasts Scheduled s actions) : (s.run actions).Negotiated := by
  induction actions generalizing s with
  | nil => exact h
  | cons a rest ih => exact ih (h.act hs scheduled.1) (hs.act a) scheduled.2

theorem negotiated_initial (config : Config) (restartable : Bool) (rules : List (String × Json)) :
    (initial config restartable rules).Negotiated where
  attended := attended_initial config restartable rules
  prompt := Or.inl fun k hk => by cases hk
  vouched := fun _ hr => by cases hr
  undecided := fun _ _ _ _ => rfl

/-- A connect call takes up the response of a server that goes together with the client. -/
def Agrees (s : State) (a : Action) : Prop :=
  ∃ c ∈ s.calls, c.request = .connect ∧ a = .resume c.id ∧
    ∃ response, s.Informed c response ∧ s.agrees response = true

/-- The connection is open and has not been started anew. -/
def Continues (s : State) (a : Action) : Prop :=
  (s.act a).connection.starts = s.connection.starts ∧ (s.act a).connection.connected = true

theorem Agrees.ready (h : s.Agrees a) (hs : s.Sound) : (s.act a).networkReady = true := by
  obtain ⟨c, hc, hr, rfl, response, informed, agrees⟩ := h
  obtain ⟨k, d, _, hact⟩ := hs.act_of_informed hc (by rw [hr]; rfl) informed
  rw [hact]
  simp only [State.serviceEnds, hr]
  rw [connectEnds_of_agrees ((agrees_quit k).trans agrees)]
  rfl

/-- The versions are known to agree when a call has learned it just now, or when they were and the
connection continues. -/
theorem Negotiated.ready_act (h : s.Negotiated) (hs : s.Sound) (next : (s.act a).Negotiated)
    (alive : (s.act a).alive = true) :
    (s.act a).networkReady = true ↔ s.Agrees a ∨ (s.networkReady = true ∧ s.Continues a) := by
  by_cases hconnect : ∃ c ∈ s.calls, c.request = .connect ∧ a = .resume c.id
  · obtain ⟨c, hc, hr, rfl⟩ := hconnect
    refine ⟨fun hready => ?_, fun hcase => hcase.elim (·.ready hs) fun ⟨before, _⟩ => ?_⟩
    · cases h.outcome hs hc hr with
      | stood starts connected ready waits news =>
        exact Or.inr ⟨ready ▸ hready, starts, next.vouched alive hready⟩
      | failed before fails =>
        rw [fails.ready, before] at hready
        cases hready
      | agreed k waits response informed agrees ends =>
        exact Or.inl ⟨c, hc, hr, rfl, response, informed, agrees⟩
    · cases h.outcome hs hc hr with
      | stood starts connected ready waits news => exact ready.trans before
      | failed unready fails =>
        rw [unready] at before
        cases before
      | agreed k waits response informed agrees ends =>
        rw [ends]
        rfl
  · have other : ∀ c ∈ s.calls, c.request = .connect → a ≠ .resume c.id :=
      fun c hc hr ha => hconnect ⟨c, hc, hr, ha⟩
    have level := Level.act s other
    refine ⟨fun hready => Or.inr ⟨?_, level.starts, next.vouched alive hready⟩, fun hcase => ?_⟩
    · rcases level.ready with ⟨ready, _⟩ | ⟨_, ready⟩
      · exact ready ▸ hready
      · exact ready hready
    · rcases hcase with agrees | ⟨before, _, connected⟩
      · exact agrees.ready hs
      · rcases level.ready with ⟨ready, _⟩ | ⟨gone, _⟩
        · exact ready.trans before
        · rw [gone] at connected
          cases connected

theorem Negotiated.ready_run (hs : s.Sound) (h : s.Negotiated) (start : s.networkReady = false)
    (actions : List Action) (scheduled : Lasts Scheduled s actions) (alive : (s.run actions).alive = true) :
    (s.run actions).networkReady = true ↔ Since Continues Agrees s actions := by
  induction actions using List.reverseRecOn with
  | nil => exact iff_of_false (by rw [run_nil, start]; exact Bool.false_ne_true) id
  | append_singleton before a ih =>
    obtain ⟨earlier, now⟩ := lasts_concat.mp scheduled
    have hb := hs.run before
    have hn := h.run hs earlier
    rw [run_append] at alive ⊢
    rw [since_concat, ← ih earlier (hb.alive_of_act alive)]
    exact hn.ready_act hb (hn.act hb now) alive

/-- A call that came out says what is known of the versions by then. -/
theorem Outcome.tells (h : s.Outcome c s') {news : List Entry} (hj : s'.journal = s.journal ++ news)
    {r : Result} (told : .finished c.id .connect r ∈ news) :
    (r = .done (.ok ()) ∧ s'.networkReady = true) ∨
      ∃ e, r = .done (.error e) ∧ s'.networkReady = false := by
  cases h with
  | stood starts connected ready waits hnews =>
    obtain ⟨news', hj', _, hn⟩ := hnews
    obtain rfl := List.append_cancel_left (hj.symm.trans hj')
    obtain ⟨hok, before⟩ := hn r told
    exact Or.inl ⟨hok, ready.trans before⟩
  | failed before fails =>
    obtain ⟨news', hj', hn⟩ := fails.news
    obtain rfl := List.append_cancel_left (hj.symm.trans hj')
    obtain ⟨e, he⟩ := hn r told
    exact Or.inr ⟨e, he, fails.ready.trans before⟩
  | agreed k waits response informed agrees ends =>
    have hj' : s'.journal = s.journal ++ [.finished c.id c.request (.done (.ok ()))] := by
      rw [ends]
      exact congrArg (· ++ _) (journal_quit s c k)
    obtain rfl := List.append_cancel_left (hj.symm.trans hj')
    refine Or.inl ⟨(Entry.finished.inj (List.mem_singleton.mp told)).2.2, ?_⟩
    rw [ends]
    rfl

/-- A connect call that finds the versions to agree does nothing. -/
theorem Outcome.rests (h : s.Outcome c s') (hr : c.request = .connect) (hu : s.Undecided)
    (ready : s.networkReady = true) : s'.connection.starts = s.connection.starts ∧ Mute s s' := by
  cases h with
  | stood starts connected _ waits news =>
    obtain ⟨news, hj, hm, _⟩ := news
    exact ⟨starts, news, hj, hm⟩
  | failed before fails =>
    rw [before] at ready
    cases ready
  | agreed k waits response informed agrees ends =>
    rw [hu c k hr waits] at ready
    cases ready

/-- In every history in which whoever can go on goes on first, the connection is given one listener at
most, and a living session takes the versions to agree exactly since a connect call learned it on
this connection, which has been open and not started anew since then. A connect call that comes out well
leaves them known to agree, and one that fails leaves them unknown. While they are known to agree,
nothing starts the connection, and no connect call sends anything. -/
theorem negotiated_since_version_accepted (config : Config) (restartable : Bool)
    (rules : List (String × Json)) (actions : List Action)
    (scheduled : Lasts Scheduled (initial config restartable rules) actions) :
    let start := initial config restartable rules
    let s := start.run actions
    s.connection.listeners ≤ 1 ∧
      (s.alive = true →
        (s.networkReady = true ↔ Since Continues Agrees start actions) ∧
        (s.networkReady = true → s.connection.connected = true)) ∧
      (∀ c ∈ s.calls, c.request = .connect → ∀ news r,
        (s.act (.resume c.id)).journal = s.journal ++ news → .finished c.id .connect r ∈ news →
          (r = .done (.ok ()) ∧ (s.act (.resume c.id)).networkReady = true) ∨
            ∃ e, r = .done (.error e) ∧ (s.act (.resume c.id)).networkReady = false) ∧
      (s.networkReady = true →
        (∀ a, (s.act a).connection.starts = s.connection.starts) ∧
        ∀ c ∈ s.calls, c.request = .connect → Mute s (s.act (.resume c.id))) := by
  intro start s
  have h₀ : start.Sound := sound_initial config restartable rules
  have hn₀ : start.Negotiated := negotiated_initial config restartable rules
  have hs : s.Sound := h₀.run actions
  have hn : s.Negotiated := hn₀.run h₀ scheduled
  refine ⟨?_, fun alive => ⟨hn₀.ready_run h₀ rfl actions scheduled alive, hn.vouched alive⟩,
    fun c hc hr news r hj told => (hn.outcome hs hc hr).tells hj told, fun ready => ⟨fun a => ?_, ?_⟩⟩
  · rw [hn.attended.sole]
    split
    · exact Nat.le_refl 1
    · exact Nat.zero_le 1
  · by_cases hconnect : ∃ c ∈ s.calls, c.request = .connect ∧ a = .resume c.id
    · obtain ⟨c, hc, hr, rfl⟩ := hconnect
      exact ((hn.outcome hs hc hr).rests hr hn.undecided ready).1
    · exact (Level.act s fun c hc hr ha => hconnect ⟨c, hc, hr, ha⟩).starts
  · exact fun c hc hr => ((hn.outcome hs hc hr).rests hr hn.undecided ready).2

/-- A connection on which the versions were found to agree closes, and is started anew. -/
def reconnecting : List Action :=
  [.start 0 .connect, .resume 0, .receive, .resume 0, .close, .start 1 .connect, .resume 1, .receive,
    .resume 1, .start 2 .connect]

theorem reconnected_is_negotiated_anew :
    let start := initial {} true obliging
    let told := start.run (reconnecting.take 3)
    let s := start.run reconnecting
    Lasts Scheduled start (reconnecting.take 3) ∧ Lasts Scheduled start reconnecting ∧
      (told.act (.resume 0)).networkReady = true ∧
      s.connection.starts = 2 ∧ s.connection.listeners ≤ 1 ∧ s.alive = true ∧ s.networkReady = true ∧
      s.connection.connected = true ∧ Since Continues Agrees start reconnecting ∧
      Mute s (s.act (.resume 2)) := by
  intro start told s
  have scheduled : Lasts Scheduled start reconnecting := by decide +kernel
  have earlier : Lasts Scheduled start (reconnecting.take 3) := by decide +kernel
  have alive : s.alive = true := by decide +kernel
  have ready : s.networkReady = true := by decide +kernel
  have mem : (⟨2, .connect, .fresh⟩ : Call) ∈ s.calls := by decide +kernel
  obtain ⟨sole, known, _, rests⟩ :=
    negotiated_since_version_accepted {} true obliging reconnecting scheduled
  obtain ⟨since, connected⟩ := known alive
  refine ⟨earlier, scheduled, ?_, by decide +kernel, sole, alive, ready, connected ready, since.mp ready,
    (rests ready).2 _ mem rfl⟩
  -- the first call comes out well
  have hc : (⟨0, .connect, .awaiting 1 3000⟩ : Call) ∈ told.calls := by decide +kernel
  have hj : (((initial {} true obliging).run (reconnecting.take 3)).act (.resume 0)).journal =
      ((initial {} true obliging).run (reconnecting.take 3)).journal ++
        [.finished 0 .connect (.done (.ok ()))] := rfl
  have outcome := (negotiated_since_version_accepted {} true obliging (reconnecting.take 3) earlier).2.2.1
  rcases outcome _ hc rfl _ _ hj (List.mem_singleton.mpr rfl) with ⟨_, h⟩ | ⟨_, h, _⟩
  · exact h
  · cases h

/-- A reply that is not taken up at once is taken up on a connection that is gone. -/
example :
    let s := (initial {} false obliging).run [.start 0 .connect, .resume 0, .receive, .close, .resume 0]
    s.alive = true ∧ s.networkReady = true ∧ s.connection.connected = false := by decide +kernel

end State
end RemoteDebug.Engine
