import RemoteDebug.Proofs.Incident

/-! The connection and who hears of it.

While nothing ends, a connection that is open stays open, and it is opened only by a
session that has its service handler and so is the connection's listener. Hence a
session whose owner keeps the browser hears whatever happens on its connection. -/
namespace RemoteDebug.Engine
open Protocol Wire

namespace State

variable {s s' s'' : State}

/-- What goes on leaves of the connection and of the service handler. -/
structure Linked (s s' : State) : Prop where
  lasts : s.connection.connected = true → s'.connection.connected = true
  opens : s'.connection.connected = true → s.connection.connected = true ∨ s.service.isSome = true
  listeners : s.connection.listeners ≤ s'.connection.listeners
  closes : s'.connection.closes = s.connection.closes
  manned : s.service.isSome = true → s'.service.isSome = true
  /-- A service handler is made by the session that becomes the listener, or is there already for
  somebody who waits. -/
  staffed : s'.service.isSome = true → s.service.isSome = true ∨ 0 < s'.connection.listeners ∨
    ∃ c k, s.view.Waits c .session k
  browser : s'.browser = s.browser

theorem Linked.of_eq (connection : s'.connection = s.connection) (service : s'.service = s.service)
    (browser : s'.browser = s.browser) : Linked s s' where
  lasts := by rw [connection]; exact id
  opens := by rw [connection]; exact Or.inl
  listeners := Nat.le_of_eq (congrArg _ connection.symm)
  closes := by rw [connection]
  manned := by rw [service]; exact id
  staffed := by rw [service]; exact Or.inl
  browser := browser

theorem Linked.trans_eq (h : Linked s s') (connection : s''.connection = s'.connection)
    (service : s''.service = s'.service) (browser : s''.browser = s'.browser) : Linked s s'' where
  lasts := by rw [connection]; exact h.lasts
  opens := by rw [connection]; exact h.opens
  listeners := by rw [connection]; exact h.listeners
  closes := by rw [connection]; exact h.closes
  manned := by rw [service]; exact h.manned
  staffed := by rw [service, connection]; exact h.staffed
  browser := browser.trans h.browser

/-! What a call does to its place touches the service handler only if it waits there. -/

theorem service_changeLock (s : State) (r : Request) (f : List CallId → List CallId) :
    (s.changeLock r f).service = s.service := by
  cases r <;> rfl

theorem service_unmark (s : State) (r : Request) : (s.unmark r).service = s.service := by
  cases r <;> rfl

theorem service_leave (s : State) (r : Request) (k : Ticket) :
    (s.leave r k).service = s.service ∨ (r.desk = .session ∧ (s.leave r k).service.isSome = true) := by
  cases r <;> first | exact Or.inl rfl | exact Or.inr ⟨rfl, rfl⟩

theorem service_enter (s : State) (c : Call) :
    (s.enter c).service = s.service ∨
      (c.request.desk = .session ∧ (s.enter c).service.isSome = true) := by
  unfold enter join
  cases c.request <;> first | exact Or.inl rfl | exact Or.inr ⟨rfl, rfl⟩

theorem service_quit (s : State) (c : Call) (k : Ticket) :
    (s.quit c k).service = s.service ∨
      (c.request.desk = .session ∧ (s.quit c k).service.isSome = true) := by
  have h : (s.quit c k).service = (s.leave c.request k).service := by
    unfold quit retire
    rw [service_changeLock]
    exact service_unmark _ _
  rw [h]
  exact service_leave s c.request k

theorem browser_changeLock (s : State) (r : Request) (f : List CallId → List CallId) :
    (s.changeLock r f).browser = s.browser := by
  cases r <;> rfl

theorem browser_enter (s : State) (c : Call) : (s.enter c).browser = s.browser := by
  unfold enter join
  cases c.request <;> rfl

theorem browser_quit (s : State) (c : Call) (k : Ticket) : (s.quit c k).browser = s.browser := by
  unfold quit retire
  rw [browser_changeLock]
  show ((s.leave c.request k).unmark c.request).browser = _
  cases c.request <;> rfl

theorem linked_ensureService (s : State) : Linked s s.ensureService := by
  unfold ensureService
  split
  · exact .of_eq rfl rfl rfl
  · exact {
      lasts := id
      opens := Or.inl
      listeners := Nat.le_succ _
      closes := rfl
      manned := fun _ => rfl
      staffed := fun _ => Or.inr (Or.inl (Nat.succ_pos _))
      browser := rfl }

/-- Whoever asks a service of the session finds its handler. -/
theorem Ready.manned {c : Call} (r : s.Ready c) (h : c.request.desk = .session) :
    s.service.isSome = true := by
  have hf := r.fits
  cases hr : c.request with
  | attach t l => rw [hr] at h; cases h
  | detach t => rw [hr] at h; cases h
  | service command timeout => rw [hr] at h; cases h
  | _ => rw [hr] at hf; exact hf

theorem linked_asked {c : Call} (r : s.Ready c) (m : Message) : Linked s (s.asked c m) := by
  have hc := connection_asked s c m
  obtain ⟨connected, listeners, closes⟩ := send_keeps s.connection m
  have hservice : (s.asked c m).service = (s.enter c).service := by
    unfold asked
    rw [send_eq]
    rfl
  refine ⟨?_, ?_, ?_, ?_, ?_, ?_, ?_⟩
  · rw [hc, connected]
    exact id
  · rw [hc, connected]
    exact Or.inl
  · exact Nat.le_of_eq (by rw [hc, listeners])
  · rw [hc, closes]
  · intro h
    rw [hservice]
    rcases service_enter s c with he | ⟨_, he⟩
    · rw [he]
      exact h
    · exact he
  · intro h
    rw [hservice] at h
    rcases service_enter s c with he | ⟨hd, _⟩
    · rw [he] at h
      exact Or.inl h
    · exact Or.inl (r.manned hd)
  · show ((s.enter c).send (some c.id) m).1.browser = _
    rw [send_eq]
    exact browser_enter s c

theorem linked_quit {c : Call} {k : Ticket} {d : Nat} (hc : c ∈ s.calls)
    (hp : c.point = .awaiting k d) : Linked s (s.quit c k) := by
  have hcon := connection_quit s c k
  refine ⟨?_, ?_, ?_, ?_, ?_, ?_, browser_quit s c k⟩
  · rw [hcon]
    exact id
  · rw [hcon]
    exact Or.inl
  · exact Nat.le_of_eq (by rw [hcon])
  · rw [hcon]
  · intro h
    rcases service_quit s c k with he | ⟨_, he⟩
    · rw [he]
      exact h
    · exact he
  · intro h
    rcases service_quit s c k with he | ⟨hd, _⟩
    · rw [he] at h
      exact Or.inl h
    · exact Or.inr (Or.inr ⟨c, k, hc, hd, d, hp⟩)

theorem linked_refused (hs : s.Sound) {c : Call} (r : s.Ready c) (m : Message) :
    Linked s (s.refused c m) := by
  have ha := linked_asked r m
  have hq : Linked (s.asked c m) (s.refused c m) :=
    linked_quit (c := s.seated c) (hs.waits_seated r m).1 rfl
  have hservice : (s.asked c m).service.isSome = true → s.service.isSome = true := by
    intro h
    have he : (s.asked c m).service = (s.enter c).service := by
      unfold asked
      rw [send_eq]
      rfl
    rw [he] at h
    rcases service_enter s c with he | ⟨hd, _⟩
    · rw [he] at h
      exact h
    · exact r.manned hd
  have hsame : (s.refused c m).connection = (s.asked c m).connection := connection_quit _ _ _
  refine ⟨fun h => hq.lasts (ha.lasts h), ?_, Nat.le_trans ha.listeners hq.listeners,
    hq.closes.trans ha.closes, fun h => hq.manned (ha.manned h), ?_, hq.browser.trans ha.browser⟩
  · rw [hsame]
    exact ha.opens
  · intro h
    rcases service_quit (s.asked c m) c (s.nextTicket c.request) with he | ⟨hd, _⟩
    · change (s.refused c m).service = _ at he
      rw [he] at h
      exact Or.inl (hservice h)
    · exact Or.inl (r.manned hd)

theorem Change.linked (h : Change s s') (hs : s.Sound) : Linked s s' := by
  cases h with
  | noted es plain => exact .of_eq rfl rfl rfl
  | rewired c lasts opens listeners closes inbound =>
    exact {
      lasts := lasts
      opens := opens
      listeners := Nat.le_of_eq listeners.symm
      closes := closes
      manned := id
      staffed := Or.inl
      browser := rfl }
  | readied ready => exact .of_eq rfl rfl rfl
  | served => exact linked_ensureService s
  | marked t l tab => exact .of_eq rfl rfl rfl
  | unmarked r => exact .of_eq (connection_unmark s r) (service_unmark s r) (by cases r <;> rfl)
  | purged => exact .of_eq rfl rfl rfl
  | enrolled c u tab mem idle holds about known vacant => exact .of_eq rfl rfl rfl
  | created e vacant => exact .of_eq rfl rfl rfl
  | lined c mem fresh =>
    exact .of_eq (connection_changeLock _ _ _) (service_changeLock _ _ _) (browser_changeLock _ _ _)
  | queued c mem fresh => exact .of_eq rfl rfl rfl
  | asked c m ready sent => exact linked_asked ready m
  | refused c m ready e unsent => exact linked_refused hs ready m
  | quit c k d mem waits => exact linked_quit mem waits
  | retired c mem idle =>
    exact .of_eq (connection_retire s c) (service_changeLock _ _ _) (browser_changeLock _ _ _)
  | granted c t l k d v mem about waits answered => exact (linked_quit mem waits).trans_eq rfl rfl rfl

theorem Answer.linked {d : Desk} {command : String} (h : Answer s d command s') : Linked s s' := by
  cases h with
  | session p known v =>
    refine { Linked.of_eq (s := s) rfl rfl rfl with manned := fun _ => rfl, staffed := fun _ => Or.inl ?_ }
    rw [known]
    rfl
  | separate v => exact .of_eq rfl rfl rfl
  | tab t known v => exact .of_eq rfl rfl rfl

theorem ReplyFreeMove.linked (h : ReplyFreeMove s s') (hs : s.Sound) : Linked s s' := by
  cases h with
  | change h => exact h.linked hs
  | opened id r can => exact .of_eq rfl rfl rfl
  | wired c connected listeners closes =>
    exact {
      lasts := fun h => connected.trans h
      opens := fun h => Or.inl (connected.symm.trans h)
      listeners := Nat.le_of_eq listeners.symm
      closes := closes
      manned := id
      staffed := Or.inl
      browser := rfl }
  | tweaked t f keeps => exact .of_eq rfl rfl rfl
  | aged ms => exact .of_eq rfl rfl rfl
  | separated => exact .of_eq rfl rfl rfl

theorem BypassFreeMove.linked (h : BypassFreeMove s s') (hs : s.Sound) : Linked s s' := by
  cases h with
  | replyFree h => exact h.linked hs
  | answer h routed => exact h.linked

/-- Nothing closes a connection but an end. -/
theorem EndFreeMoves.lasts (h : EndFreeMoves s s') (hs : s.Sound) (hc : s.connection.connected = true) :
    s'.connection.connected = true := by
  induction h with
  | refl => exact hc
  | tail steps step ih =>
    cases step with
    | bypassFree ho => exact (ho.linked (EndFreeMoves.sound steps hs)).lasts ih
    | handed ha => exact ha.linked.lasts ih
    | dropped => exact ih

/-! ### A session that hears -/

/-- The session hears what happens on its connection. -/
structure Attentive (s : State) : Prop where
  heard : s.connection.connected = true ∨ s.service.isSome = true → 0 < s.connection.listeners
  served : ∀ c k, s.view.Waits c .session k → s.service.isSome = true
  browser : s.browser = true

theorem Attentive.alive (h : s.Attentive) : s.alive = true := by
  unfold State.alive
  rw [h.browser]
  rfl

theorem Attentive.listens (h : s.Attentive) (hc : s.connection.connected = true) :
    s.listens = true := by
  unfold State.listens
  rw [h.alive, Bool.and_true, decide_eq_true_eq]
  exact h.heard (Or.inl hc)

theorem BypassFreeMove.attentive (ho : BypassFreeMove s s') (hs : s.Sound) (h : s.Attentive) : s'.Attentive := by
  have hl := ho.linked hs
  have more : 0 < s.connection.listeners → 0 < s'.connection.listeners :=
    fun hp => Nat.lt_of_lt_of_le hp hl.listeners
  refine ⟨fun hc => ?_, fun c k hw => ?_, hl.browser.trans h.browser⟩
  · rcases hc with hc | hc
    · exact more (h.heard (hl.opens hc))
    · rcases hl.staffed hc with hc | hp | ⟨c, k, hw⟩
      · exact more (h.heard (Or.inr hc))
      · exact hp
      · exact more (h.heard (Or.inr (h.served c k hw)))
  · rcases ho.waits hs hw with hw | ⟨c, m, ready, _, _, _, hd, _⟩
    · exact hl.manned (h.served c k hw)
    · exact hl.manned (ready.manned hd.symm)

theorem BypassFreeMoves.attentive (ho : BypassFreeMoves s s') (hs : s.Sound) (h : s.Attentive) : s'.Attentive := by
  induction ho with
  | refl => exact h
  | tail steps step ih => exact step.attentive (BypassFreeMoves.sound steps hs) ih

theorem Attentive.of_eq (h : s.Attentive)
    (connected : s'.connection.connected = true → s.connection.connected = true)
    (listeners : s'.connection.listeners = s.connection.listeners)
    (service : s'.service.isSome = s.service.isSome) (calls : s'.calls = s.calls)
    (browser : s'.browser = s.browser) : s'.Attentive := by
  refine ⟨fun hc => ?_, fun c k hw => ?_, browser.trans h.browser⟩
  · rw [listeners]
    rw [service] at hc
    exact h.heard (hc.imp_left connected)
  · rw [service]
    refine h.served c k ⟨?_, hw.2⟩
    show c ∈ s.calls
    rw [← calls]
    exact hw.1

theorem Attentive.close (h : s.Attentive) : s.close.1.Attentive := by
  refine h.of_eq ?_ ?_ ?_ (calls_close s) ?_
  all_goals
    unfold State.close
    split
    · split <;> first | exact (fun hc => by cases hc) | exact Option.isSome_map | rfl
    · first | exact id | rfl

theorem Attentive.perform (h : s.Attentive) (d : Duty) : (s.perform d).1.Attentive := by
  cases d with
  | detach t =>
    unfold State.perform
    dsimp only
    split
    · rw [announceDetached_eq]
      exact h.of_eq id rfl rfl rfl rfl
    · exact h.of_eq id rfl rfl rfl rfl
  | terminate id =>
    rw [registry_terminate]
    exact h.of_eq (fun hc => hc) rfl rfl rfl rfl
  | closeIfIdle =>
    rw [perform_closeIfIdle]
    split
    · exact h
    · exact h.close

theorem Attentive.unwind (h : s.Attentive) (duties : List Duty) : (s.unwind duties).Attentive :=
  unwind_induction (P := fun s _ => s.Attentive) (fun _ d _ h => h.perform d) s duties h

theorem Attentive.fire (h : s.Attentive) (k : Trigger) : (s.fire k).Attentive := by
  cases k with
  | close => exact h.close.unwind _
  | detached t => exact h.unwind _
  | terminated id => exact h.unwind _

theorem Attentive.act {a : Action} (h : s.Attentive) (hs : s.Sound) (ordinary : a.isOrdinary = true) :
    (s.act a).Attentive := by
  cases ho : s.occasion? a with
  | none => exact (hs.bypassFree_act ordinary ho).attentive hs h
  | some o =>
    have hb := (replyFree_before ho).bypassFree.attentive hs h
    rw [act_of_occasion ho]
    exact (hb.fire o.trigger).of_eq id rfl rfl rfl rfl

/-- A session whose owner keeps the browser hears whatever happens on its connection. -/
theorem Attentive.run (h : s.Attentive) (hs : s.Sound) {actions : List Action}
    (ordinary : ∀ a ∈ actions, a.isOrdinary = true) : (s.run actions).Attentive := by
  induction actions generalizing s with
  | nil => exact h
  | cons a rest ih =>
    have ha := h.act hs (ordinary a (List.mem_cons_self ..))
    exact ih ha (hs.act a) fun x hx => ordinary x (List.mem_cons_of_mem _ hx)

theorem attentive_initial (config : Config) (restartable : Bool) (rules : List (String × Json)) :
    (initial config restartable rules).Attentive where
  heard := fun h => by simp [initial] at h
  served := fun _ _ hw => by cases hw.1
  browser := rfl

end State

/-- The rules of a server with two tabs that grants whatever it is asked. -/
def obliging : List (String × Json) :=
  [("version", .ofFields [("command", .str "version"), ("result", .ofNat 0), ("data", .str "0.1")]),
    ("list_tabs", .ofFields
      [("command", .str "list_tabs"), ("result", .ofNat 0),
        ("data", .arr [.arr [.ofNat 7, .str "a"], .arr [.ofNat 8, .str "b"]])]),
    ("attach", .ofFields [("command", .str "attach"), ("result", .ofNat 0)])]

end RemoteDebug.Engine
