import RemoteDebug.Proofs.Attachment

/-! Who listens to a connection.

The session makes its service handler once, and with it becomes the connection's listener. It does so
before it opens the connection or waits for a service, so as long as it is alive it hears what happens
on an open connection, and nobody waits for a service on one that is not open. -/
namespace RemoteDebug.Engine
open Protocol Wire

namespace State

variable {s s' x : State} {c : Call}

/-- The number of listeners is that of the service handlers, and the handler is there as long as it is
needed. -/
structure Attended (s : State) : Prop where
  sole : s.connection.listeners = if s.service.isSome then 1 else 0
  served : ∀ c k, s.view.Waits c .session k → s.service.isSome = true
  manned : s.connection.connected = true → s.service.isSome = true
  /-- Whoever waits for a service of the session and has heard nothing waits on an open connection. -/
  lively : ∀ k, (s.view.board .session).receiver? k = some .waiting → s.connection.connected = true

theorem alive_of_browser (h : s.browser = true) : s.alive = true := by
  unfold State.alive
  rw [h]
  rfl

/-- A call of the session keeps it alive. -/
theorem alive_of_mem (hc : c ∈ s.calls) (holds : c.request.holdsSession = true) : s.alive = true := by
  unfold State.alive
  rw [Bool.or_eq_true]
  exact Or.inr (List.any_eq_true.mpr ⟨c, hc, holds⟩)

theorem alive_of_waits {k : Ticket} (hw : s.view.Waits c .session k) : s.alive = true := by
  refine alive_of_mem hw.1 ?_
  have hd := hw.2.1
  cases hr : c.request <;> rw [hr] at hd <;> first | rfl | cases hd

theorem waits_of_calls (calls : s'.calls = s.calls) {d : Desk} {k : Ticket} (hw : s'.view.Waits c d k) :
    s.view.Waits c d k := by
  refine ⟨?_, hw.2⟩
  show c ∈ s.calls
  rw [← calls]
  exact hw.1

/-- A living session hears what happens on an open connection. -/
theorem Attended.listens (h : s.Attended) (hc : s.connection.connected = true) (alive : s.alive = true) :
    s.listens = true := by
  unfold State.listens
  rw [h.sole, h.manned hc, alive]
  rfl

/-! ### While nothing ends -/

theorem isSome_service_enter (r : s.Ready c) : (s.enter c).service.isSome = s.service.isSome := by
  rcases service_enter s c with he | ⟨hd, he⟩
  · rw [he]
  · rw [he, r.manned hd]

theorem isSome_service_quit {k : Ticket} (served : c.request.desk = .session → s.service.isSome = true) :
    (s.quit c k).service.isSome = s.service.isSome := by
  rcases service_quit s c k with he | ⟨hd, he⟩
  · rw [he]
  · rw [he, served hd]

theorem service_asked (s : State) (c : Call) (m : Message) :
    (s.asked c m).service = (s.enter c).service := by
  unfold asked
  rw [send_eq]
  rfl

theorem listeners_asked (s : State) (c : Call) (m : Message) :
    (s.asked c m).connection.listeners = s.connection.listeners := by
  rw [connection_asked, (send_keeps s.connection m).2.1]

/-- The session has as many listeners and handlers as it had, or it makes its handler. -/
theorem Change.staff (h : Change s s') (ha : s.Attended) :
    (s'.connection.listeners = s.connection.listeners ∧ s'.service.isSome = s.service.isSome) ∨
      s' = s.ensureService := by
  cases h with
  | rewired c lasts opens listeners closes inbound => exact Or.inl ⟨listeners, rfl⟩
  | served => exact Or.inr rfl
  | unmarked r =>
    exact Or.inl ⟨by rw [connection_unmark], by rw [service_unmark]⟩
  | lined c mem fresh =>
    exact Or.inl ⟨by rw [connection_changeLock], by rw [service_changeLock]⟩
  | asked c m ready sent =>
    exact Or.inl ⟨listeners_asked s c m, by rw [service_asked, isSome_service_enter ready]⟩
  | refused c m ready e unsent =>
    refine Or.inl ⟨(congrArg _ (connection_quit _ c _)).trans (listeners_asked s c m), ?_⟩
    have hsame : (s.asked c m).service.isSome = s.service.isSome := by
      rw [service_asked, isSome_service_enter ready]
    exact (isSome_service_quit fun hd => hsame.trans (ready.manned hd)).trans hsame
  | quit c k d mem waits =>
    exact Or.inl ⟨congrArg _ (connection_quit s c k),
      isSome_service_quit fun hd => ha.served c k ⟨mem, hd, d, waits⟩⟩
  | retired c mem idle =>
    exact Or.inl ⟨congrArg _ (connection_retire s c), congrArg _ (service_changeLock _ _ _)⟩
  | granted c t l k d v mem about waits answered =>
    exact Or.inl ⟨congrArg _ (connection_quit s c k),
      isSome_service_quit fun hd => ha.served c k ⟨mem, hd, d, waits⟩⟩
  | _ => exact Or.inl ⟨rfl, rfl⟩

theorem Change.sole (h : Change s s') (ha : s.Attended) :
    s'.connection.listeners = if s'.service.isSome then 1 else 0 := by
  rcases h.staff ha with ⟨listeners, service⟩ | rfl
  · rw [listeners, service]
    exact ha.sole
  · unfold ensureService
    split
    · exact ha.sole
    · next hn =>
      show s.connection.listeners + 1 = 1
      rw [ha.sole, hn]
      rfl

theorem ReplyFreeMove.sole (h : ReplyFreeMove s s') (ha : s.Attended) :
    s'.connection.listeners = if s'.service.isSome then 1 else 0 := by
  cases h with
  | change h => exact h.sole ha
  | wired c connected listeners closes => exact listeners.trans ha.sole
  | _ => exact ha.sole

theorem ReplyFreeMove.attended (h : ReplyFreeMove s s') (hs : s.Sound) (ha : s.Attended) : s'.Attended where
  sole := h.sole ha
  served c k hw := by
    have hl := h.linked hs
    rcases h.waits hs hw with hw | ⟨c, m, ready, _, _, _, hd, _⟩
    · exact hl.manned (ha.served c k hw)
    · exact hl.manned (ready.manned hd.symm)
  manned hc := by
    have hl := h.linked hs
    exact hl.manned ((hl.opens hc).elim ha.manned id)
  lively k hk := by
    rcases h.receiver hs hk with hold | ⟨_, hnone⟩ | hfailed
    · exact (h.linked hs).lasts (ha.lively k hold)
    · obtain ⟨c, hw⟩ := (h.sound hs).owned .session k _ hk
      exact h.waits_new hs hw hnone
    · cases hfailed

theorem Answer.attended {d : Desk} {command : String} (h : Answer s d command s') (ha : s.Attended) :
    s'.Attended where
  sole := by
    cases h with
    | session p known v =>
      refine ha.sole.trans ?_
      rw [known]
      rfl
    | separate v => exact ha.sole
    | tab t known v => exact ha.sole
  served c k hw := by
    rw [h.view] at hw
    exact h.linked.manned (ha.served c k hw)
  manned hc := h.linked.manned ((h.linked.opens hc).elim ha.manned id)
  lively k hk := by
    rcases h.receiver hk with hold | ⟨hr, _⟩
    · exact h.linked.lasts (ha.lively k hold)
    · cases hr

theorem EndFreeMove.attended (h : EndFreeMove s s') (hs : s.Sound) (ha : s.Attended) : s'.Attended := by
  cases h with
  | bypassFree h =>
    cases h with
    | replyFree h => exact h.attended hs ha
    | answer h routed => exact h.attended ha
  | handed h => exact h.attended ha
  | dropped => exact ⟨ha.sole, ha.served, ha.manned, ha.lively⟩

/-! ### Ends -/

theorem Attended.of_eq (h : s.Attended) (connection : s'.connection = s.connection)
    (service : s'.service = s.service) (calls : s'.calls = s.calls) : s'.Attended where
  sole := by
    rw [connection, service]
    exact h.sole
  served c k hw := by
    rw [service]
    exact h.served c k (waits_of_calls calls hw)
  manned := by
    rw [connection, service]
    exact h.manned
  lively k hk := by
    rw [connection]
    refine h.lively k ?_
    change (s'.service.getD {}).blank.receiver? k = _ at hk
    rwa [service] at hk

/-- A connection that closes leaves nobody waiting for a service. -/
theorem Attended.silenced (h : s.Attended) (hs : s.Sound) (hc : s.connection.connected = true)
    (k : Ticket) : (s.close.1.view.board .session).receiver? k ≠ some .waiting := by
  intro hk
  cases alive : s.alive with
  | false =>
    obtain ⟨c, hw⟩ := hs.close.owned .session k _ hk
    rw [alive_of_waits (waits_of_calls (calls_close s) hw)] at alive
    cases alive
  | true =>
    rw [view_close, hc, h.listens hc alive, Bool.and_self, if_pos rfl, View.board_setBoard, if_pos rfl,
      (hs.boards .session).receiver?_failAll] at hk
    obtain ⟨r, _, hr⟩ := Option.map_eq_some_iff.mp hk
    cases r <;> cases hr

theorem Attended.close (h : s.Attended) (hs : s.Sound) : s.close.1.Attended := by
  cases hc : s.connection.connected with
  | false =>
    rw [close_of_disconnected hc]
    exact h
  | true =>
    have hconnection : s.close.1.connection = s.connection.close := by
      unfold State.close
      rw [if_pos hc]
      split <;> rfl
    have hservice : s.close.1.service.isSome = s.service.isSome := by
      unfold State.close
      rw [if_pos hc]
      split
      · exact Option.isSome_map
      · rfl
    refine ⟨?_, fun c k hw => ?_, fun hc' => ?_, fun k hk => absurd hk (h.silenced hs hc k)⟩
    · rw [hconnection, hservice]
      exact h.sole
    · rw [hservice]
      exact h.served c k (waits_of_calls (calls_close s) hw)
    · rw [hconnection] at hc'
      cases hc'

theorem Attended.perform (h : s.Attended) (hs : s.Sound) (d : Duty) : (s.perform d).1.Attended := by
  cases d with
  | detach t =>
    refine h.of_eq (connection_detach s t) ?_ (calls_perform s _)
    unfold State.perform
    dsimp only
    split
    · rw [announceDetached_eq]
      rfl
    · rfl
  | terminate id =>
    rw [registry_terminate]
    exact h.of_eq rfl rfl rfl
  | closeIfIdle =>
    rw [perform_closeIfIdle]
    split
    · exact h
    · exact h.close hs

/-- What each duty keeps in a living session that listens, a cascade keeps. -/
theorem Attended.unwind_induction {P : State → List Duty → Prop} (h : s.Attended) (hs : s.Sound)
    (alive : s.alive = true)
    (step : ∀ x d rest, x.Sound → x.Attended → x.alive = true → P x (d :: rest) →
      P (x.perform d).1 ((x.perform d).2 ++ rest))
    {duties : List Duty} (start : P s duties) : P (s.unwind duties) [] := by
  refine (State.unwind_induction (P := fun x ds => (x.Sound ∧ x.Attended ∧ x.alive = true) ∧ P x ds)
    (fun x d rest hx => ?_) s duties ⟨⟨hs, h, alive⟩, start⟩).2
  obtain ⟨⟨hsx, hx, alivex⟩, hp⟩ := hx
  exact ⟨⟨hsx.perform d, hx.perform hsx d, (alive_perform x d).trans alivex⟩,
    step x d rest hsx hx alivex hp⟩

theorem Move.attended (h : Move s s') (hs : s.Sound) (ha : s.Attended) : s'.Attended := by
  cases h with
  | endFree h => exact h.attended hs ha
  | performed d => exact ha.perform hs d
  | closed => exact ha.close hs

theorem Moves.attended (h : Moves s s') (hs : s.Sound) (ha : s.Attended) : s'.Attended := by
  induction h with
  | refl => exact ha
  | tail steps step ih => exact step.attended (Moves.sound steps hs) ih

theorem Attended.act (h : s.Attended) (hs : s.Sound) (a : Action) : (s.act a).Attended :=
  (hs.moves_act a).attended hs h

theorem Attended.run (h : s.Attended) (hs : s.Sound) (actions : List Action) : (s.run actions).Attended := by
  induction actions generalizing s with
  | nil => exact h
  | cons a rest ih => exact ih (h.act hs a) (hs.act a)

theorem attended_initial (config : Config) (restartable : Bool) (rules : List (String × Json)) :
    (initial config restartable rules).Attended where
  sole := rfl
  served := fun _ _ hw => by cases hw.1
  manned := fun hc => by cases hc
  lively := fun k hk => by cases hk

end State
end RemoteDebug.Engine
