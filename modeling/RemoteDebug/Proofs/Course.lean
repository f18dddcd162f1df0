import RemoteDebug.Proofs.Stages
import RemoteDebug.Proofs.Work

/-! The course of a call as a chain of changes.

A call that can go on comes nearer to its end, and all that it does on the way is
a chain of changes, with one exception: a detach that is granted ends an
attachment, which can end others. -/
namespace RemoteDebug.Engine
open Protocol Wire

namespace State

variable {s s' : State} {c : Call}

theorem changes_note (s : State) {es : List Entry} (plain : ∀ e ∈ es, e.isPlain = true) :
    Changes s (s.note es) :=
  Relation.ReflTransGen.single (.noted es plain)

theorem Remark.isPlain {e : Entry} (h : Remark c e) : e.isPlain = true := by
  cases h with
  | notice n => rfl
  | finished r failed =>
    cases hr : c.request with
    | attach t l =>
      obtain ⟨e, rfl⟩ := failed t (by rw [hr]; rfl)
      rfl
    | _ => rfl

theorem Conclusion.change (h : Conclusion c s s') : Change s s' := by
  cases h with
  | noted e remark => exact .noted [e] fun x hx => List.mem_singleton.mp hx ▸ remark.isPlain
  | readied about ready => exact .readied ready
  | created about e vacant => exact .created e vacant

theorem Conclusions.changes (h : Conclusions c s s') : Changes s s' :=
  Relation.ReflTransGen.lift id (fun _ _ => Conclusion.change) s s' h

/-! ### The end of a wait -/

/-- The tab whose attachment ends when a waiting call goes on. -/
def ousts? (s : State) (c : Call) (k : Ticket) : Option Instance :=
  match c.request with
  | .detach t =>
    match (s.tabTable t).receiver? k with
    | some (.answered reply) => if reply.code.isOk then some t else none
    | _ => none
  | _ => none

theorem Sound.advance_quit (hs : s.Sound) {k : Ticket} {d : Nat} (hc : c ∈ s.calls)
    (hp : c.point = .awaiting k d) : Advance s (s.quit c k) :=
  (Change.quit c k d hc hp).advance (hs.work_quit hc k)

/-- A wait that has ended takes the call to its end. -/
theorem Sound.advance_poll (hs : s.Sound) {k : Ticket} {d : Nat} (hc : c ∈ s.calls)
    (hp : c.point = .awaiting k d) (ready : s.runnable c = true) (quiet : s.ousts? c k = none) :
    Advance s (s.poll c k d) := by
  have hpolled := polled s c k d
  generalize s.poll c k d = y at hpolled ⊢
  cases hpolled with
  | lasts still =>
    rw [still hp] at ready
    cases ready
  | left conclusions => exact (hs.advance_quit hc hp).then hs conclusions.changes
  | attached t l reply about heard ok =>
    exact (Change.granted c t l k d reply hc about hp heard).advance (hs.work_granted hc about)
  | detached t reply about heard ok =>
    simp only [ousts?, about, heard, ok, if_true, reduceCtorEq] at quiet

/-- Otherwise the call waits on. -/
theorem poll_of_not_runnable {k : Ticket} {d : Nat} (hp : c.point = .awaiting k d)
    (h : s.runnable c = false) : s.poll c k d = s := by
  unfold runnable at h
  rw [hp] at h
  cases ht : c.request.tab? with
  | some t =>
    simp only [ht, Option.isSome_eq_false_iff, Option.isNone_iff_eq_none] at h
    rw [poll_of_tab ht, h]
    rfl
  | none =>
    simp only [ht, Option.isSome_eq_false_iff, Option.isNone_iff_eq_none] at h
    rw [poll_of_free ht, h]
    rfl

theorem Sound.changes_poll (hs : s.Sound) {k : Ticket} {d : Nat} (hc : c ∈ s.calls)
    (hp : c.point = .awaiting k d) (quiet : s.ousts? c k = none) : Changes s (s.poll c k d) := by
  cases h : s.runnable c with
  | true => exact (hs.advance_poll hc hp h quiet).1
  | false =>
    rw [poll_of_not_runnable hp h]
    exact .refl

/-! ### The request goes out -/

/-- Whoever has just asked hears nothing yet. -/
theorem Sound.receiver_seated (hs : s.Sound) (r : s.Ready c) (m : Message) :
    ((s.asked c m).board c.request.desk).receiver? (s.nextTicket c.request) = some .waiting := by
  have hv : (s.asked c m).board = (s.view.enter c (s.deadlineOf c.request)).board :=
    congrArg View.board (view_asked s r m)
  have hb : (s.view.board c.request.desk).Sound := hs.boards _
  rw [hv, nextTicket_eq]
  show ((s.view.setBoard _ _).board _).receiver? _ = _
  rw [View.board_setBoard, if_pos rfl]
  exact (Pending.receiver?_register _ _ _ hb.next_free).trans (if_pos rfl)

/-- It waits at the table of its tab. -/
theorem Sound.waiting_at_tab (hs : s.Sound) (r : s.Ready c) (m : Message) (about : c.request.tab? = some t) :
    ((s.asked c m).tabTable t).receiver? (s.nextTicket c.request) = some .waiting := by
  have hw := hs.receiver_seated r m
  rw [board_desk, about] at hw
  exact Pending.receiver?_blank_waiting.mp hw

/-- It waits at the table of its service. -/
theorem Sound.waiting_at_service (hs : s.Sound) (r : s.Ready c) (m : Message)
    (free : c.request.tab? = none) :
    ((s.asked c m).serviceTable c.request).receiver? (s.nextTicket c.request) = some .waiting := by
  have hw := hs.receiver_seated r m
  rw [board_desk, free] at hw
  exact Pending.receiver?_blank_waiting.mp hw

theorem Sound.ousts_seated (hs : s.Sound) (r : s.Ready c) (m : Message) :
    (s.asked c m).ousts? (s.seated c) (s.nextTicket c.request) = none := by
  unfold ousts?
  split
  · next t hreq =>
    change c.request = .detach t at hreq
    rw [hs.waiting_at_tab r m (by rw [hreq]; rfl)]
  · rfl

theorem Sound.advance_ask (hs : s.Sound) (r : s.Ready c) (m : Message) : Advance s (s.ask c m) := by
  rcases ask_cases s c m with ⟨sent, h⟩ | ⟨e, unsent, h⟩
  · rw [h]
    have hp := (hs.asked r m).changes_poll (c := s.seated c) (hs.waits_seated r m).1 rfl
      (hs.ousts_seated r m)
    exact ((Change.asked c m r sent).advance (hs.work_asked r m)).then hs hp
  · exact ((Change.refused c m r e unsent).advance (hs.work_refused r unsent)).then hs h.changes

/-! ### From the start -/

/-- A call that is not yet waiting and that nothing keeps back. -/
structure Poised (s : State) (c : Call) : Prop where
  mem : c ∈ s.calls
  idle : c.Idle
  holds : s.view.Holds c

theorem Poised.of_view (p : s.Poised c) (calls : s'.view.calls = s.view.calls)
    (lock : s'.view.lock = s.view.lock) : s'.Poised c where
  mem := by
    show c ∈ s'.view.calls
    rw [calls]
    exact p.mem
  idle := p.idle
  holds := by
    intro n hn
    rw [lock]
    exact p.holds n hn

theorem Poised.ready (p : s.Poised c) (hs : s.Sound) (fits : s.Fits c.request) : s.Ready c where
  mem := p.mem
  idle := p.idle
  holds := (hs.holds p.mem).mpr p.holds
  tab := hs.hasTab p.mem
  fits := fits

theorem Sound.advance_finish (hs : s.Sound) (p : s.Poised c) {r : Result}
    (remark : Remark c (.finished c.id c.request r)) : Advance s (s.finish c r) := by
  have hreport : Conclusions c (s.retire c) (s.finish c r) := .single (.noted _ remark)
  exact ((Change.retired c p.mem p.idle).advance (hs.work_retire p.mem)).then hs hreport.changes

theorem Poised.served (p : s.Poised c) : s.ensureService.Poised c :=
  p.of_view (congrArg View.calls (view_ensureService s)) (congrArg View.lock (view_ensureService s))

theorem Poised.purged (p : s.Poised c) : s.purge.Poised c := p.of_view rfl rfl

theorem Poised.unmarked (p : s.Poised c) (r : Request) : (s.unmark r).Poised c :=
  p.of_view (congrArg View.calls (view_unmark s r)) (congrArg View.lock (view_unmark s r))

theorem change_startConnection (s : State) (h : s.service.isSome = true) :
    Change s s.startConnection.1 := by
  have hc : ∀ c : Connection, (c.connected = true → c.start.1.connected = true) ∧
      c.start.1.listeners = c.listeners ∧ c.start.1.closes = c.closes ∧
      c.start.1.inbound = c.inbound := by
    intro c
    unfold Connection.start
    dsimp only
    split
    · exact ⟨id, rfl, rfl, rfl⟩
    · split
      · exact ⟨id, rfl, rfl, rfl⟩
      · exact ⟨fun _ => rfl, rfl, rfl, rfl⟩
  obtain ⟨lasts, listeners, closes, inbound⟩ := hc s.connection
  exact Change.rewired _ lasts (fun _ => Or.inr h) listeners closes (Nat.le_of_eq (congrArg _ inbound))

/-- A preparation is a change, and nothing keeps the call back after it. -/
theorem Preparation.change (h : Preparation c s s') (hs : s.Sound) (p : s.Poised c) :
    Change s s' ∧ s'.Poised c := by
  cases h with
  | served free => exact ⟨.served, p.served⟩
  | started about service => exact ⟨change_startConnection s service, p.of_view rfl rfl⟩
  | purged about => exact ⟨.purged, p.purged⟩
  | marked t l about =>
    have ht := hs.hasTab p.mem t (by rw [about]; rfl)
    have hv := view_mark s t l ht
    exact ⟨.marked t l ht, p.of_view (by rw [hv]; rfl) (by rw [hv]; rfl)⟩
  | enrolled t l tab about known vacant =>
    have held := (hs.holds p.mem).mpr p.holds
    exact ⟨.enrolled c t tab p.mem p.idle held (by rw [about]; rfl) known vacant, p.of_view rfl rfl⟩

theorem Preparations.changes (h : Preparations c s s') (hs : s.Sound) (p : s.Poised c) :
    Changes s s' ∧ s'.Sound ∧ s'.Poised c := by
  induction h with
  | refl => exact ⟨.refl, hs, p⟩
  | tail _ step ih =>
    obtain ⟨hsteps, hx, px⟩ := ih
    obtain ⟨hstep, py⟩ := step.change hx px
    exact ⟨hsteps.tail hstep, hstep.sound hx, py⟩

/-- An attach of a tab that is not attached may ask, once its tab has its place. -/
theorem Poised.ready_placed (p : s.Poised c) (hs : s.Sound) {t : Instance} {l : Listener} {tab : Tab}
    (about : c.request = .attach t l) (known : s.tab? t = some tab) (detached : tab.attached = false) :
    (s.placed t l).Sound ∧ (s.placed t l).Ready c := by
  obtain ⟨_, hx, px⟩ := (preparations_placed s about).changes hs p
  exact ⟨hx, px.ready hx (by rw [about]; exact fits_placed known detached)⟩

theorem Sound.advance_begin (hs : s.Sound) (p : s.Poised c) : Advance s (s.begin c) := by
  have hbegun := begun s c
  generalize s.begin c = y at hbegun ⊢
  cases hbegun with
  | asks x prepared fits =>
    obtain ⟨hsteps, hx, px⟩ := prepared.changes hs p
    exact (hx.advance_ask (px.ready hx fits) _).after hs hsteps
  | leaves x prepared r remark =>
    obtain ⟨hsteps, hx, px⟩ := prepared.changes hs p
    have hunmark : Change x (x.unmark c.request) := .unmarked _
    exact ((hunmark.sound hx).advance_finish (px.unmarked _) remark).after hs (hsteps.tail hunmark)

/-! ### Going on -/

theorem changes_lined (hc : c ∈ s.calls) : Changes s (s.lined c) := by
  unfold lined
  split
  · next fresh => exact .single (.lined c hc fresh)
  · exact .refl

theorem Sound.lined (hs : s.Sound) (hc : c ∈ s.calls) : (s.lined c).Sound := Changes.sound (changes_lined hc) hs

/-- A call that is admitted is ready to begin once it stands in line. -/
theorem Sound.poised_of_admits (hs : s.Sound) (hc : c ∈ s.calls) (h : s.Admits c) : (s.lined c).Poised c := by
  have hc' : c ∈ (s.lined c).calls := by
    rw [calls_lined]
    exact hc
  exact ⟨hc', h.1, ((hs.lined hc).holds hc').mp h.2⟩

theorem resume_of_not_runnable (h : s.runnable c = false) : s.resume c = s := by
  unfold resume
  unfold runnable at h
  cases hp : c.point with
  | fresh =>
    rw [hp] at h
    cases h
  | queued =>
    rw [hp] at h
    exact if_neg (Bool.eq_false_iff.mp h)
  | awaiting k d => exact poll_of_not_runnable hp (by unfold runnable; exact h)

/-- What a call can go on with is a chain of changes, unless it ends an attachment. -/
theorem Sound.advance_resume (hs : s.Sound) (hc : c ∈ s.calls) (ready : s.runnable c = true)
    (quiet : ∀ k d, c.point = .awaiting k d → s.ousts? c k = none) : Advance s (s.resume c) := by
  by_cases admits : s.Admits c
  · rw [resume_of_admits admits]
    exact ((hs.lined hc).advance_begin (hs.poised_of_admits hc admits)).after hs (changes_lined hc)
  · rcases resume_of_not_admits admits with ⟨hp, h⟩ | ⟨hp, h⟩ | ⟨k, d, hp, h⟩
    · -- in the queue it could go on only if it were admitted
      have idle : c.Idle := fun k d he => by rw [hp] at he; cases he
      unfold runnable at ready
      rw [hp] at ready
      refine absurd ⟨idle, ?_⟩ admits
      rwa [State.lined, if_neg (by rw [hp]; exact Point.noConfusion)]
    · have hc' : c ∈ (s.lined c).calls := by
        rw [calls_lined]
        exact hc
      rw [h]
      exact ((Change.queued c hc' hp).advance ((hs.lined hc).work_queued hc' hp)).after hs (changes_lined hc)
    · rw [h]
      exact hs.advance_poll hc hp ready (quiet k d hp)

end State
end RemoteDebug.Engine
