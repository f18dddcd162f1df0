import RemoteDebug.Proofs.Incident

/-! Exchanges with the debuggers of tabs: who waits for what, and what the registry keeps.

An exchange that is awaited began while the connection was there, and it hears its
answer from the connection or not at all. An instance that is attached keeps its
place in the registry until its attachment ends, and an instance takes a place in the
registry only while nobody waits for an exchange with it. -/
namespace RemoteDebug.Engine
open Protocol Wire

/-- The exchange with a tab that a request is. -/
def Request.handshake? : Request → Option (Handshake × Instance)
  | .attach t _ => some (.attach, t)
  | .detach t => some (.detach, t)
  | _ => none

theorem Request.tab?_of_handshake? {r : Request} {h : Handshake} {t : Instance}
    (hr : r.handshake? = some (h, t)) : r.tab? = some t := by
  cases r <;> simp_all [Request.handshake?, Request.tab?]

namespace View

variable {v : View} {h : Handshake} {t : Instance} {r : Receiver Unit}

/-- A call waits for an exchange with a tab, and has heard this much. -/
def Awaits (v : View) (h : Handshake) (t : Instance) (r : Receiver Unit) : Prop :=
  ∃ c k, v.Waits c (.tab t) k ∧ c.request.handshake? = some (h, t) ∧
    (v.board (.tab t)).receiver? k = some r

/-- Whoever waits for an exchange with a tab holds the tab. -/
theorem Sound.no_exchange (hv : v.Sound) {c : Call} (hc : c ∈ v.calls) (idle : c.Idle)
    (holds : v.Holds c) (ht : c.request.tab? = some t) : ¬ v.Awaits h t r := by
  rintro ⟨x, k, hw, hx, _⟩
  have hxt := State.Request.need?_of_tab? (Request.tab?_of_handshake? hx)
  have hsame := hv.exclusive hw.1 hc (hv.holder x _ k hw) holds hxt (State.Request.need?_of_tab? ht)
  obtain ⟨_, _, dl, hp⟩ := hw
  exact idle k dl (hsame ▸ hp)

/-- What is heard with a ticket once a call has taken a place: its own ticket is new. -/
theorem Sound.receiver_enter (hv : v.Sound) {c : Call} {dl : Nat} {d : Desk} {k : Ticket}
    (hr : ((v.enter c dl).board d).receiver? k = some r) :
    (v.board d).receiver? k = some r ∨ (r = .waiting ∧ (v.board d).receiver? k = none) := by
  have hb := hv.boards c.request.desk
  rw [board_enter] at hr
  split at hr
  · next hd =>
    subst hd
    rw [Pending.receiver?_register _ _ _ hb.next_free] at hr
    split at hr
    · next hk =>
      rw [hk]
      exact Or.inr ⟨(Option.some.inj hr).symm, hb.next_free⟩
    · exact Or.inl hr
  · exact Or.inl hr

theorem receiver_quit {c : Call} {k k' : Ticket} {d : Desk}
    (hr : ((v.quit c k).board d).receiver? k' = some r) : (v.board d).receiver? k' = some r := by
  rw [board_quit] at hr
  split at hr
  · next hd =>
    rw [Pending.receiver?_leave] at hr
    split at hr
    · cases hr
    · rw [hd]
      exact hr
  · exact hr

/-- Answering a desk lets the first who waits there hear an answer. -/
theorem receiver_complete {d d' : Desk} {command : String} {k : Ticket}
    (hr : ((v.setBoard d ((v.board d).complete command ()).2).board d').receiver? k = some r) :
    (v.board d').receiver? k = some r ∨ (r = .answered () ∧ d' = d ∧
      ((v.board d).reached command).head? = some k) := by
  rw [board_setBoard] at hr
  split at hr
  · next hd =>
    subst hd
    rw [Pending.receiver?_complete] at hr
    split at hr
    · next hk =>
      rw [Pending.waiting_of_head_reached hk] at hr
      exact Or.inr ⟨(Option.some.inj hr).symm, rfl, hk⟩
    · exact Or.inl hr
  · exact Or.inl hr

/-- Failing a desk leaves nobody there waiting, and nobody hears an answer by it. -/
theorem Sound.receiver_failAll (hv : v.Sound) {d d' : Desk} {k : Ticket}
    (hr : ((v.setBoard d (v.board d).failAll).board d').receiver? k = some r) :
    ((v.board d').receiver? k = some r ∧ (d' = d → r ≠ .waiting)) ∨ r = .failed := by
  rw [board_setBoard] at hr
  split at hr
  · next hd =>
    subst hd
    rw [(hv.boards _).receiver?_failAll] at hr
    obtain ⟨r', hr', he⟩ := Option.map_eq_some_iff.mp hr
    cases r' with
    | waiting => exact Or.inr he.symm
    | answered u =>
      obtain rfl : Receiver.answered u = r := he
      exact Or.inl ⟨hr', fun _ he => by cases he⟩
    | failed => exact Or.inr he.symm
  · next hd => exact Or.inl ⟨hr, fun h => absurd h hd⟩

theorem awaits_quit {c : Call} {k : Ticket} (hw : (v.quit c k).Awaits h t r) : v.Awaits h t r := by
  obtain ⟨x, k', hw, hx, hr⟩ := hw
  exact ⟨x, k', (waits_quit.mp hw).1, hx, receiver_quit hr⟩

end View

namespace State

variable {s s' : State} {h : Handshake} {t : Instance} {r : Receiver Unit} {d : Desk} {k : Ticket}

/-! ### What is heard -/

/-- By a change a ticket is given out, and nothing else is heard. -/
theorem Change.receiver (hc : Change s s') (hs : s.Sound)
    (hr : (s'.view.board d).receiver? k = some r) :
    (s.view.board d).receiver? k = some r ∨ (r = .waiting ∧ (s.view.board d).receiver? k = none) := by
  cases hc with
  | noted es plain => exact Or.inl hr
  | rewired c lasts opens listeners closes inbound => exact Or.inl hr
  | readied ready => exact Or.inl hr
  | served =>
    rw [view_ensureService] at hr
    exact Or.inl hr
  | marked t' l tab =>
    rw [view_mark s t' l tab] at hr
    exact Or.inl hr
  | unmarked r' =>
    rw [view_unmark] at hr
    exact Or.inl hr
  | purged => exact Or.inl hr
  | enrolled c t' tab mem idle holds about known vacant => exact Or.inl hr
  | created e vacant =>
    rw [view_create] at hr
    exact Or.inl hr
  | lined c mem fresh =>
    rw [view_changeLock _ _ _ (Or.inl (hs.hasTab mem)), View.changeLock_eq] at hr
    exact Or.inl hr
  | queued c mem fresh => exact Or.inl hr
  | asked c m ready sent =>
    rw [view_asked s ready m] at hr
    exact View.Sound.receiver_enter hs hr
  | refused c m ready e unsent =>
    rw [hs.view_refused ready m] at hr
    exact View.Sound.receiver_enter hs (View.receiver_quit hr)
  | quit c k d mem waits =>
    rw [view_quit s c k (hs.hasTab mem)] at hr
    exact Or.inl (View.receiver_quit hr)
  | retired c mem idle =>
    rw [view_retire, View.retire_eq] at hr
    exact Or.inl hr
  | granted c t' l k d v mem about waits answered =>
    rw [hs.view_granted mem about] at hr
    exact Or.inl (View.receiver_quit hr)

theorem ReplyFreeMove.receiver (hu : ReplyFreeMove s s') (hs : s.Sound)
    (hr : (s'.view.board d).receiver? k = some r) :
    (s.view.board d).receiver? k = some r ∨ (r = .waiting ∧ (s.view.board d).receiver? k = none) ∨
      r = .failed := by
  cases hu with
  | change hc => exact (hc.receiver hs hr).imp_right Or.inl
  | opened id rq can => exact Or.inl hr
  | wired c connected listeners closes => exact Or.inl hr
  | tweaked t' f keeps =>
    rw [view_modifyTab_keeps s t' keeps] at hr
    exact Or.inl hr
  | aged ms => exact Or.inl hr
  | separated =>
    rw [view_failSeparate] at hr
    rcases View.Sound.receiver_failAll hs hr with ⟨hr, _⟩ | hr
    · exact Or.inl hr
    · exact Or.inr (Or.inr hr)

/-- A reply is heard by the first who waits where it comes in. -/
theorem Answer.receiver {d' : Desk} {command : String} (ha : Answer s d' command s')
    (hr : (s'.view.board d).receiver? k = some r) :
    (s.view.board d).receiver? k = some r ∨ (r = .answered () ∧ d = d' ∧
      ((s.view.board d').reached command).head? = some k) := by
  rw [ha.view] at hr
  exact View.receiver_complete hr

theorem Sound.receiver_close (hs : s.Sound) (hr : (s.close.1.view.board d).receiver? k = some r) :
    (s.view.board d).receiver? k = some r ∨ r = .failed := by
  rw [view_close] at hr
  split at hr
  · exact (View.Sound.receiver_failAll hs hr).imp_left And.left
  · exact Or.inl hr

/-- By the end of an attachment those who wait hear a failure, or nothing. -/
theorem Sound.receiver_perform (hs : s.Sound) (duty : Duty)
    (hr : ((s.perform duty).1.view.board d).receiver? k = some r) :
    ((s.view.board d).receiver? k = some r ∧
        (∀ t, duty = .detach t → d = .tab t → r ≠ .waiting)) ∨ r = .failed := by
  cases duty with
  | detach u =>
    rw [view_detach] at hr
    rcases View.Sound.receiver_failAll hs hr with ⟨hr, hne⟩ | hr
    · refine Or.inl ⟨hr, fun t he hd => hne ?_⟩
      cases he
      exact hd
    · exact Or.inr hr
  | terminate id =>
    rw [registry_terminate] at hr
    exact Or.inl ⟨hr, fun t he => by cases he⟩
  | closeIfIdle =>
    have still : ∀ t, Duty.closeIfIdle = .detach t → d = .tab t → r ≠ .waiting := by
      intro t he
      cases he
    rw [perform_closeIfIdle] at hr
    split at hr
    · exact Or.inl ⟨hr, still⟩
    · exact (hs.receiver_close hr).imp_left fun hr => ⟨hr, still⟩

/-! ### Exchanges -/

theorem connected_of_sent {c : Connection} {m : Message} (h : (c.send m).2 = .ok ()) :
    (c.send m).1.connected = true := by
  unfold Connection.send at h ⊢
  split
  · next hf =>
    rw [hf] at h
    cases h
  · next hf =>
    rw [hf] at h
    dsimp only at h
    split
    · next hc =>
      rw [if_pos hc] at h
      cases h
    · next hc =>
      have hcon : c.connected = true := by simpa using hc
      split <;> exact hcon

/-- Whoever waits with a ticket that was not given out before has just asked, on a connection. -/
theorem ReplyFreeMove.waits_new (hu : ReplyFreeMove s s') (hs : s.Sound) {x : Call} (hw : s'.view.Waits x d k)
    (hr : (s.view.board d).receiver? k = none) : s'.connection.connected = true := by
  rcases hu.waits hs hw with hw | ⟨c, m, ready, sent, rfl, _⟩
  · obtain ⟨r, hr', _⟩ := hs.seat x d k hw
    rw [hr] at hr'
    cases hr'
  · rw [result_send, connection_enter] at sent
    rw [connection_asked]
    exact connected_of_sent sent

/-- An exchange that begins begins on a connection, and nothing but a reply lets one be answered. -/
theorem ReplyFreeMove.awaits (hu : ReplyFreeMove s s') (hs : s.Sound) (hw : s'.view.Awaits h t r) :
    s.view.Awaits h t r ∨ (r = .waiting ∧ s'.connection.connected = true) ∨ r = .failed := by
  obtain ⟨x, k, hw, hx, hr⟩ := hw
  rcases hu.receiver hs hr with hr | ⟨hr, hnone⟩ | hr
  · rcases hu.waits hs hw with hw | ⟨c, m, ready, _, _, _, hd, hk⟩
    · exact Or.inl ⟨x, k, hw, hx, hr⟩
    · -- the ticket of a call that has just asked is new
      rw [hd, hk, nextTicket_eq] at hr
      have hfree := (hs.boards c.request.desk).next_free
      rw [show (s.view.board c.request.desk).nextTicket = s.view.nextTicket c.request from rfl, hr] at hfree
      cases hfree
  · exact Or.inr (Or.inl ⟨hr, hu.waits_new hs hw hnone⟩)
  · exact Or.inr (Or.inr hr)

/-- A reply is the only thing by which an exchange comes to be answered. -/
theorem Answer.awaits {command : String} (ha : Answer s d command s') (hw : s'.view.Awaits h t r) :
    s.view.Awaits h t r ∨ (r = .answered () ∧ d = .tab t ∧ s.view.Awaits h t .waiting) := by
  obtain ⟨x, k, hw, hx, hr⟩ := hw
  have hw' : s.view.Waits x (.tab t) k := by
    rw [ha.view] at hw
    exact hw
  rcases ha.receiver hr with hr | ⟨hr, hd, hk⟩
  · exact Or.inl ⟨x, k, hw', hx, hr⟩
  · refine Or.inr ⟨hr, hd.symm, x, k, hw', hx, ?_⟩
    rw [hd]
    exact Pending.waiting_of_head_reached hk

theorem Sound.awaits_close (hs : s.Sound) (hw : s.close.1.view.Awaits h t r) :
    s.view.Awaits h t r ∨ r = .failed := by
  obtain ⟨x, k, hw, hx, hr⟩ := hw
  have hm : x ∈ s.close.1.calls := hw.1
  rw [calls_close] at hm
  exact (hs.receiver_close hr).imp_left fun hr => ⟨x, k, ⟨hm, hw.2⟩, hx, hr⟩

/-- What an end of an attachment does to those who wait: they fail or hear nothing new. -/
theorem Sound.awaits_perform (hs : s.Sound) (duty : Duty) (hw : (s.perform duty).1.view.Awaits h t r) :
    (s.view.Awaits h t r ∧ (duty = .detach t → r ≠ .waiting)) ∨ r = .failed := by
  obtain ⟨x, k, hw, hx, hr⟩ := hw
  have hm : x ∈ (s.perform duty).1.calls := hw.1
  rw [calls_perform] at hm
  exact (hs.receiver_perform duty hr).imp_left fun ⟨hr, hne⟩ =>
    ⟨⟨x, k, ⟨hm, hw.2⟩, hx, hr⟩, fun hd => hne t hd rfl⟩

/-! ### Attachments and the registry -/

/-- The journal grows by quiet entries, and no attachment changes. -/
def Still (s s' : State) : Prop :=
  ∃ news, s'.journal = s.journal ++ news ∧ (∀ e ∈ news, e.isQuiet = true) ∧
    s'.view.attached = s.view.attached

theorem Still.silent (journal : s'.journal = s.journal)
    (attached : s'.view.attached = s.view.attached) : Still s s' :=
  ⟨[], journal.trans (List.append_nil _).symm, (fun _ he => by cases he), attached⟩

theorem Still.posted {a : Option CallId} {m : Message} {r : Except TransportError Unit}
    (journal : s'.journal = s.journal ++ posted a m r)
    (attached : s'.view.attached = s.view.attached) : Still s s' := by
  refine ⟨_, journal, fun e he => ?_, attached⟩
  unfold State.posted at he
  split at he
  · rw [List.mem_singleton.mp he]
    rfl
  · cases he

/-- A change that attaches an instance grants its attach. -/
theorem Change.still_or_granted (hc : Change s s') (hs : s.Sound) : Still s s' ∨
    ∃ c t l k d v, c ∈ s.calls ∧ c.request = .attach t l ∧ c.point = .awaiting k d ∧
      (s.tabTable t).receiver? k = some (.answered v) ∧ s' = s.granted c t k := by
  cases hc with
  | noted es plain => exact Or.inl ⟨es, rfl, fun e he => Entry.isQuiet_of_isPlain (plain e he), rfl⟩
  | rewired c lasts opens listeners closes inbound => exact Or.inl (.silent rfl rfl)
  | readied ready => exact Or.inl (.silent rfl rfl)
  | served => exact Or.inl (.silent (journal_ensureService s) (by rw [view_ensureService]))
  | marked t' l tab => exact Or.inl (.silent rfl (by rw [view_mark s t' l tab]; rfl))
  | unmarked r' => exact Or.inl (.silent (journal_unmark s r') (by rw [view_unmark]))
  | purged => exact Or.inl (.silent rfl rfl)
  | enrolled c u tab mem idle holds about known vacant => exact Or.inl (.silent rfl rfl)
  | created e vacant =>
    refine Or.inl ⟨[.event s.tabs.length (.created e.id e.url)], rfl, fun x hx => ?_, ?_⟩
    · rw [List.mem_singleton.mp hx]
      rfl
    · rw [view_create]
      rfl
  | lined c mem fresh =>
    refine Or.inl (.silent (journal_changeLock _ _ _) ?_)
    rw [view_changeLock _ _ _ (Or.inl (hs.hasTab mem)), View.changeLock_eq]
  | queued c mem fresh => exact Or.inl (.silent rfl rfl)
  | asked c m ready sent =>
    refine Or.inl (.posted (journal_asked s c m) ?_)
    rw [view_asked s ready m]
    rfl
  | refused c m ready e unsent =>
    refine Or.inl (.posted ((journal_quit _ c _).trans (journal_asked s c m)) ?_)
    rw [hs.view_refused ready m, View.quit_eq]
    rfl
  | quit c k d mem waits =>
    refine Or.inl (.silent (journal_quit s c k) ?_)
    rw [view_quit s c k (hs.hasTab mem), View.quit_eq]
  | retired c mem idle =>
    refine Or.inl (.silent (journal_retire s c) ?_)
    rw [view_retire, View.retire_eq]
  | granted c t' l k d v mem about waits answered =>
    exact Or.inr ⟨c, t', l, k, d, v, mem, about, waits, answered, rfl⟩

theorem attached_granted (hs : s.Sound) {c : Call} {u : Instance} {l : Listener} (hc : c ∈ s.calls)
    (about : c.request = .attach u l) (k : Ticket) :
    (s.granted c u k).isAttached t = if t = u then true else s.isAttached t := by
  show (s.granted c u k).view.attached t = _
  rw [hs.view_granted hc about, View.attached_setAttached, View.quit_eq]
  rfl

theorem awaits_of_answered {c : Call} {l : Listener} {k : Ticket} {d : Nat} {v : DebuggerReply}
    (hc : c ∈ s.calls) (about : c.request = .attach t l) (waits : c.point = .awaiting k d)
    (answered : (s.tabTable t).receiver? k = some (.answered v)) :
    s.view.Awaits .attach t (.answered ()) := by
  refine ⟨c, k, ⟨hc, by rw [about]; rfl, d, waits⟩, by rw [about]; rfl, ?_⟩
  show (s.tabTable t).blank.receiver? k = _
  rw [Pending.receiver?_blank, answered]
  rfl

/-- Only where its attach was answered does a change attach an instance. -/
theorem Change.attached (hc : Change s s') (hs : s.Sound) (ha : s'.isAttached t = true) :
    s.isAttached t = true ∨ s.view.Awaits .attach t (.answered ()) := by
  rcases hc.still_or_granted hs with ⟨_, _, _, h⟩ |
    ⟨c, u, l, k, d, v, mem, about, waits, answered, rfl⟩
  · exact Or.inl ((congrFun h t).symm.trans ha)
  · rw [attached_granted hs mem about] at ha
    split at ha
    · next h =>
      subst h
      exact Or.inr (awaits_of_answered mem about waits answered)
    · exact Or.inl ha

theorem isLive_of_attached (h : s.isAttached t = true) : s.isLive t = true := by
  unfold isAttached at h
  unfold isLive Tab.isLive
  cases ht : s.tab? t with
  | none =>
    rw [ht] at h
    cases h
  | some tab =>
    rw [ht] at h
    rw [Option.any_some, show tab.attached = true from h]
    rfl

/-- An attached instance is not displaced. -/
theorem Sound.enlisted_assign (hs : s.Sound) {id : TabId} (vacant : s.Vacant id) {u : Instance}
    (ha : s.isAttached t = true) (he : s.Enlisted t) : ∃ k, (k, t) ∈ assign id u s.registry := by
  obtain ⟨k, hm⟩ := he
  refine ⟨k, (mem_assign hs.keys).mpr (Or.inr ⟨?_, hm⟩)⟩
  rintro rfl
  have hr : s.registered? k = some t := lookup_of_mem hs.keys hm
  have hl := vacant t hr
  rw [isLive_of_attached ha] at hl
  cases hl

/-- The changes of the registry. -/
theorem Change.registry (hc : Change s s') (hs : s.Sound) :
    s'.registry = s.registry ∨ s' = s.purge ∨
      (∃ (c : Call) (u : Instance) (tab : Tab), c ∈ s.calls ∧ c.Idle ∧ s.view.Holds c ∧
        c.request.tab? = some u ∧ s.Vacant tab.id ∧ s' = s.enroll tab.id u) ∨
      ∃ e : TabEntry, s.Vacant e.id ∧ s' = (s.create e).1 := by
  have same : s'.view.registry = s.view.registry → s'.registry = s.registry := id
  cases hc with
  | noted es plain => exact Or.inl rfl
  | rewired c lasts opens listeners closes inbound => exact Or.inl rfl
  | readied ready => exact Or.inl rfl
  | served => exact Or.inl (same (by rw [view_ensureService]))
  | marked t' l tab => exact Or.inl rfl
  | unmarked r' => exact Or.inl (same (by rw [view_unmark]))
  | purged => exact Or.inr (Or.inl rfl)
  | enrolled c u tab mem idle holds about known vacant =>
    exact Or.inr (Or.inr (Or.inl ⟨c, u, tab, mem, idle, (hs.holds mem).mp holds, about, vacant, rfl⟩))
  | created e vacant => exact Or.inr (Or.inr (Or.inr ⟨e, vacant, rfl⟩))
  | lined c mem fresh =>
    refine Or.inl (same ?_)
    rw [view_changeLock _ _ _ (Or.inl (hs.hasTab mem)), View.changeLock_eq]
  | queued c mem fresh => exact Or.inl rfl
  | asked c m ready sent => exact Or.inl (same (by rw [view_asked s ready m]; rfl))
  | refused c m ready e unsent =>
    refine Or.inl (same ?_)
    rw [hs.view_refused ready m, View.quit_eq]
    rfl
  | quit c k d mem waits =>
    exact Or.inl (same (by rw [view_quit s c k (hs.hasTab mem), View.quit_eq]))
  | retired c mem idle => exact Or.inl (same (by rw [view_retire, View.retire_eq]))
  | granted c t' l k d v mem about waits answered =>
    refine Or.inl (same ?_)
    rw [hs.view_granted mem about, View.quit_eq]
    rfl

/-- No change takes an attached instance out of the registry. -/
theorem Change.enlisted (hc : Change s s') (hs : s.Sound) (ha : s.isAttached t = true)
    (he : s.Enlisted t) : s'.Enlisted t := by
  rcases hc.registry hs with h | rfl | ⟨c, u, tab, _, _, _, _, vacant, rfl⟩ | ⟨e, vacant, rfl⟩
  · unfold Enlisted
    rw [h]
    exact he
  · obtain ⟨id, hm⟩ := he
    exact ⟨id, List.mem_filter.mpr ⟨hm, isLive_of_attached ha⟩⟩
  · exact hs.enlisted_assign vacant ha he
  · exact hs.enlisted_assign vacant ha he

/-- An instance that takes a place in the registry is not in the middle of an exchange. -/
theorem Change.unawaited (hc : Change s s') (hs : s.Sound) (he : s'.Enlisted t) :
    s.Enlisted t ∨ ∀ h r, ¬ s'.view.Awaits h t r := by
  rcases hc.registry hs with h | rfl | ⟨c, u, tab, mem, idle, holds, about, _, rfl⟩ | ⟨e, _, rfl⟩
  · unfold Enlisted at he
    rw [h] at he
    exact Or.inl he
  · obtain ⟨id, hm⟩ := he
    exact Or.inl ⟨id, List.mem_of_mem_filter hm⟩
  · obtain ⟨id, hm⟩ := he
    rcases (mem_assign hs.keys).mp hm with ⟨_, rfl⟩ | ⟨_, hm⟩
    · refine Or.inr fun h r hw => ?_
      change s.view.Awaits h t r at hw
      exact View.Sound.no_exchange hs mem idle holds about hw
    · exact Or.inl ⟨id, hm⟩
  · obtain ⟨id, hm⟩ := he
    rcases (mem_assign hs.keys).mp hm with ⟨_, rfl⟩ | ⟨_, hm⟩
    · refine Or.inr ?_
      rintro h r ⟨x, k, hw, hx, _⟩
      -- no call can know the new instance
      rw [view_create] at hw
      have hp := hs.present x hw.1 s.tabs.length (Request.tab?_of_handshake? hx)
      rw [isSome_ident, tab?_length] at hp
      cases hp
    · exact Or.inl ⟨id, hm⟩

theorem ReplyFreeMove.attached (hu : ReplyFreeMove s s') (hs : s.Sound) (ha : s'.isAttached t = true) :
    s.isAttached t = true ∨ s.view.Awaits .attach t (.answered ()) := by
  cases hu with
  | change hc => exact hc.attached hs ha
  | tweaked u f keeps =>
    have hv := congrArg View.attached (view_modifyTab_keeps s u keeps)
    exact Or.inl ((congrFun hv t).symm.trans ha)
  | _ => exact Or.inl ha

theorem ReplyFreeMove.enlisted (hu : ReplyFreeMove s s') (hs : s.Sound) (ha : s.isAttached t = true)
    (he : s.Enlisted t) : s'.Enlisted t := by
  cases hu with
  | change hc => exact hc.enlisted hs ha he
  | _ => exact he

theorem ReplyFreeMove.unawaited (hu : ReplyFreeMove s s') (hs : s.Sound) (he : s'.Enlisted t) :
    s.Enlisted t ∨ ∀ h r, ¬ s'.view.Awaits h t r := by
  cases hu with
  | change hc => exact hc.unawaited hs he
  | _ => exact Or.inl he

theorem Answer.registry {d : Desk} {command : String} (ha : Answer s d command s') :
    s'.registry = s.registry := by
  cases ha <;> rfl

theorem Answer.attached {d : Desk} {command : String} (ha : Answer s d command s') :
    s'.isAttached t = s.isAttached t := by
  show s'.view.attached t = _
  rw [ha.view]
  rfl

end State
end RemoteDebug.Engine
