import RemoteDebug.Proofs.Exchange

/-! What goes on beside a tab.

A call waits for its tab alone, so whatever other calls do, and whatever comes in, leaves a tab
as it is as long as nothing ends: the call that pursues it waits on, its mark stays, and while it
is live it keeps its attachment and its place in the registry. -/
namespace RemoteDebug.Engine
open Protocol Wire

/-- The request is an attach of a tab. -/
def Request.Seeks (r : Request) (t : Instance) : Prop := r.handshake? = some (.attach, t)

theorem Request.Seeks.eq {r : Request} {t : Instance} (h : r.Seeks t) : ∃ l, r = .attach t l := by
  unfold Seeks handshake? at h
  split at h <;> cases h
  exact ⟨_, rfl⟩

/-- A call waits for the reply to an attach of a tab. -/
structure Call.Pursues (c : Call) (t : Instance) : Prop where
  seeks : c.request.Seeks t
  waits : ¬ c.Idle

namespace State

variable {s s' s'' : State} {c : Call} {t : Instance}

def isAttaching (s : State) (t : Instance) : Bool := (s.tab? t).any (·.attaching)

def Pursued (s : State) (t : Instance) : Prop := ∃ c ∈ s.calls, c.Pursues t

/-- A call waits for an exchange with a tab and has heard its reply. -/
def Answered (s : State) (t : Instance) (c : Call) (reply : DebuggerReply) : Prop :=
  ∃ k d, c.point = .awaiting k d ∧ (s.tabTable t).receiver? k = some (.answered reply)

theorem tabTable_of_tab? {tab : Tab} (h : s.tab? t = some tab) : s.tabTable t = tab.pending := by
  unfold tabTable
  rw [h]
  rfl

theorem isLive_eq (s : State) (t : Instance) : s.isLive t = (s.isAttached t || s.isAttaching t) := by
  unfold isLive isAttached isAttaching
  cases s.tab? t <;> rfl

theorem point_of_waits (h : ¬ c.Idle) : ∃ k d, c.point = .awaiting k d := by
  unfold Call.Idle at h
  cases hp : c.point with
  | awaiting k d => exact ⟨k, d, rfl⟩
  | _ => exact absurd (fun k d => by rw [hp]; exact Point.noConfusion) h

theorem Sound.holds_of_pursues (hs : s.Sound) (hc : c ∈ s.calls) (hp : c.Pursues t) : s.view.Holds c := by
  obtain ⟨k, d, hpoint⟩ := point_of_waits hp.waits
  exact hs.holder c _ k (waits_of_point hc hpoint)

/-- One call at a time pursues a tab or is about to. -/
theorem Sound.pursuer_eq (hs : s.Sound) {x : Call} (hc : c ∈ s.calls) (hx : x ∈ s.calls)
    (seeks : c.request.Seeks t) (holds : s.view.Holds c) (hp : x.Pursues t) : x = c :=
  hs.exclusive hx hc (hs.holds_of_pursues hx hp) holds
    (Request.need?_of_tab? (Request.tab?_of_handshake? hp.seeks))
    (Request.need?_of_tab? (Request.tab?_of_handshake? seeks))

/-! ### Beside a tab -/

/-- What goes on beside a tab: the call that pursues it waits on and forgets no reply, its mark and its
attachment stay, and while the tab is live it keeps its place. -/
structure Beside (t : Instance) (s s' : State) : Prop where
  pursuers : ∀ x : Call, x.Pursues t → (x ∈ s'.calls ↔ x ∈ s.calls)
  attaching : s'.isAttaching t = s.isAttaching t
  attached : s'.isAttached t = s.isAttached t
  enlisted : s.isLive t = true → s.Enlisted t → s'.Enlisted t
  heard : ∀ x ∈ s.calls, x.Pursues t → ∀ reply, s.Answered t x reply → s'.Answered t x reply

theorem Beside.live (h : Beside t s s') : s'.isLive t = s.isLive t := by
  rw [isLive_eq, isLive_eq, h.attaching, h.attached]

theorem Beside.pursued (h : Beside t s s') : s'.Pursued t ↔ s.Pursued t :=
  ⟨fun ⟨x, hx, hp⟩ => ⟨x, (h.pursuers x hp).mp hx, hp⟩,
    fun ⟨x, hx, hp⟩ => ⟨x, (h.pursuers x hp).mpr hx, hp⟩⟩

theorem Beside.refl (t : Instance) (s : State) : Beside t s s :=
  ⟨fun _ _ => Iff.rfl, rfl, rfl, fun _ => id, fun _ _ _ _ => id⟩

theorem Beside.trans (h : Beside t s s') (h' : Beside t s' s'') : Beside t s s'' where
  pursuers := fun x hp => (h'.pursuers x hp).trans (h.pursuers x hp)
  attaching := h'.attaching.trans h.attaching
  attached := h'.attached.trans h.attached
  enlisted := fun hl he => h'.enlisted (h.live.trans hl) (h.enlisted hl he)
  heard := fun x hx hp reply hh =>
    h'.heard x ((h.pursuers x hp).mpr hx) hp reply (h.heard x hx hp reply hh)

theorem Beside.of_eq (calls : s'.calls = s.calls) (tabs : s'.tabs = s.tabs)
    (registry : s'.registry = s.registry) : Beside t s s' := by
  have htab : s'.tab? t = s.tab? t := by
    unfold tab?
    rw [tabs]
  refine ⟨fun x _ => by rw [calls], ?_, ?_, fun _ => ?_, fun x _ _ reply => ?_⟩
  · unfold isAttaching
    rw [htab]
  · unfold isAttached
    rw [htab]
  · unfold Enlisted
    rw [registry]
    exact id
  · unfold Answered tabTable
    rw [htab]
    exact id

theorem isAttaching_modifyTab (s : State) (u : Instance) (f : Tab → Tab)
    (keeps : u = t → ∀ x, (f x).attaching = x.attaching) :
    (s.modifyTab u f).isAttaching t = s.isAttaching t := by
  unfold isAttaching
  rw [tab?_modifyTab]
  split
  · next h => cases s.tab? t <;> simp [keeps h]
  · rfl

/-- A tab is changed, but for no mark, no attachment and no reply that the pursuer of the tab itself has
heard. -/
theorem Beside.modifyTab (s : State) (u : Instance) (f : Tab → Tab)
    (attaching : u = t → ∀ x, (f x).attaching = x.attaching)
    (attached : u = t → ∀ x, (f x).attached = x.attached)
    (heard : u = t → s.Pursued t → ∀ tab, s.tab? t = some tab → ∀ k reply,
      tab.pending.receiver? k = some (.answered reply) →
        (f tab).pending.receiver? k = some (.answered reply)) : Beside t s (s.modifyTab u f) := by
  refine ⟨fun _ _ => Iff.rfl, isAttaching_modifyTab s u f attaching, ?_, fun _ => id, ?_⟩
  · unfold isAttached
    rw [tab?_modifyTab]
    split
    · next h => cases s.tab? t <;> simp [attached h]
    · rfl
  · rintro x hx hp reply ⟨k, d, hpoint, hr⟩
    refine ⟨k, d, hpoint, ?_⟩
    by_cases hu : u = t
    · cases ht : s.tab? t with
      | none =>
        unfold tabTable at hr
        rw [ht] at hr
        cases hr
      | some tab =>
        have hm : (s.modifyTab u f).tab? t = some (f tab) := by
          rw [tab?_modifyTab, if_pos hu, ht]
          rfl
        rw [tabTable_of_tab? hm]
        rw [tabTable_of_tab? ht] at hr
        exact heard hu ⟨x, hx, hp⟩ tab ht k reply hr
    · unfold tabTable at hr ⊢
      rw [tab?_modifyTab, if_neg hu]
      exact hr

/-- A tab is changed, but for no mark, no attachment and no table. -/
theorem Beside.tweak (s : State) (u : Instance) (f : Tab → Tab)
    (attaching : u = t → ∀ x, (f x).attaching = x.attaching)
    (attached : u = t → ∀ x, (f x).attached = x.attached)
    (pending : ∀ x, (f x).pending = x.pending) : Beside t s (s.modifyTab u f) :=
  .modifyTab s u f attaching attached fun _ _ tab _ k reply h => by rw [pending]; exact h

theorem Beside.purge (t : Instance) (s : State) : Beside t s s.purge where
  pursuers := fun _ _ => Iff.rfl
  attaching := rfl
  attached := rfl
  enlisted := fun hl ⟨id, hm⟩ => ⟨id, List.mem_filter.mpr ⟨hm, hl⟩⟩
  heard := fun _ _ _ _ => id

/-- A live instance is not displaced. -/
theorem Sound.mem_assign_of_live (hs : s.Sound) {id : TabId} (vacant : s.Vacant id) {u : Instance}
    (hl : s.isLive t = true) (he : s.Enlisted t) : ∃ k, (k, t) ∈ assign id u s.registry := by
  obtain ⟨k, hm⟩ := he
  refine ⟨k, (mem_assign hs.keys).mpr (Or.inr ⟨?_, hm⟩)⟩
  rintro rfl
  have hn := vacant t (lookup_of_mem hs.keys hm)
  rw [hl] at hn
  cases hn

theorem Sound.beside_enroll (hs : s.Sound) {id : TabId} (vacant : s.Vacant id) (u : Instance) :
    Beside t s (s.enroll id u) :=
  ⟨fun _ _ => Iff.rfl, rfl, rfl, hs.mem_assign_of_live vacant, fun _ _ _ _ h => h⟩

theorem Sound.beside_create (hs : s.Sound) (e : TabEntry) (vacant : s.Vacant e.id) :
    Beside t s (s.create e).1 := by
  refine ⟨fun _ _ => Iff.rfl, ?_, ?_, hs.mem_assign_of_live vacant, ?_⟩
  · unfold isAttaching
    rw [tab?_create]
    split
    · next h =>
      rw [h, tab?_length]
      rfl
    · rfl
  · show (s.create e).1.view.attached t = _
    rw [view_create]
    rfl
  · rintro x _ _ reply ⟨k, d, hpoint, hr⟩
    refine ⟨k, d, hpoint, ?_⟩
    unfold tabTable at hr ⊢
    rw [tab?_create]
    split
    · next h =>
      rw [h, tab?_length] at hr
      cases hr
    · exact hr

/-! ### What a call does to its tab, its table and its lock -/

theorem Beside.changeLock (t : Instance) (s : State) (r : Request) (f : List CallId → List CallId) :
    Beside t s (s.changeLock r f) := by
  cases r with
  | attach u l => exact .tweak s u _ (fun _ _ => rfl) (fun _ _ => rfl) fun _ => rfl
  | detach u => exact .tweak s u _ (fun _ _ => rfl) (fun _ _ => rfl) fun _ => rfl
  | connect => exact .of_eq rfl rfl rfl
  | _ => exact .refl t s

/-- A call leaves its place, which is not at the table of the tab while another call pursues it. -/
theorem Beside.leave (s : State) (r : Request) (k : Ticket) (alone : r.tab? = some t → ¬ s.Pursued t) :
    Beside t s (s.leave r k) := by
  cases r with
  | attach u l =>
    exact .modifyTab s u _ (fun _ _ => rfl) (fun _ _ => rfl) fun hu hp =>
      absurd hp (alone (congrArg some hu))
  | detach u =>
    exact .modifyTab s u _ (fun _ _ => rfl) (fun _ _ => rfl) fun hu hp =>
      absurd hp (alone (congrArg some hu))
  | _ => exact .of_eq rfl rfl rfl

/-- The table of a tab changes in a way by which no reply that was heard is forgotten. -/
theorem Beside.setTabTable (s : State) (u : Instance) (p : Pending DebuggerReply)
    (heard : ∀ k reply, (s.tabTable u).receiver? k = some (.answered reply) →
      p.receiver? k = some (.answered reply)) : Beside t s (s.setTabTable u p) := by
  refine .modifyTab s u _ (fun _ _ => rfl) (fun _ _ => rfl) fun hu _ tab ht k reply hr => heard k reply ?_
  rw [hu, tabTable_of_tab? ht]
  exact hr

theorem answered_register {α : Type} {p : Pending α} (command : String) {k : Ticket} {v : α}
    (h : p.receiver? k = some (.answered v)) :
    (p.register command).2.receiver? k = some (.answered v) := by
  show (p.receivers ++ [_]).lookup k = _
  rw [List.lookup_append, show p.receivers.lookup k = _ from h]
  rfl

theorem answered_complete {α : Type} {p : Pending α} (command : String) (w : α) {k : Ticket} {v : α}
    (h : p.receiver? k = some (.answered v)) :
    (p.complete command w).2.receiver? k = some (.answered v) := by
  rw [Pending.receiver?_complete, if_neg, h]
  intro hk
  rw [Pending.waiting_of_head_reached hk] at h
  cases h

theorem Beside.join (t : Instance) (s : State) (r : Request) : Beside t s (s.join r) := by
  cases r with
  | attach u l => exact .setTabTable s u _ fun _ _ => answered_register _
  | detach u => exact .setTabTable s u _ fun _ _ => answered_register _
  | _ => exact .of_eq rfl rfl rfl

theorem Beside.unmark (s : State) {r : Request} (h : ¬ r.Seeks t) : Beside t s (s.unmark r) := by
  cases r with
  | attach u l => exact .tweak s u _ (fun hu => absurd (by rw [hu]; rfl) h) (fun _ _ => rfl) fun _ => rfl
  | _ => exact .refl t s

theorem Beside.mark (s : State) {u : Instance} (l : Listener) (h : u ≠ t) : Beside t s (s.mark u l) :=
  .tweak s u _ (fun hu => absurd hu h) (fun _ _ => rfl) fun _ => rfl

/-- A call leaves that does not pursue the tab. -/
theorem Beside.retire (s : State) (c : Call) (others : ∀ x ∈ s.calls, x.id = c.id → ¬ x.Pursues t) :
    Beside t s (s.retire c) := by
  have hout : Beside t s { s with calls := s.calls.filter (·.id != c.id) } := by
    refine ⟨fun x hp => ?_, rfl, rfl, fun _ he => he, fun _ _ _ _ => id⟩
    rw [List.mem_filter, bne_iff_ne]
    exact ⟨And.left, fun hx => ⟨hx, fun hid => others x hx hid hp⟩⟩
  exact hout.trans (.changeLock t _ _ _)

/-- Where a call comes to another point, the calls that pursue a tab that it does not pursue, neither
before nor after, are the same. -/
theorem Sound.pursuer_setPoint (hs : s.Sound) (hc : c ∈ s.calls) {p : Point} (before : ¬ c.Pursues t)
    (after : ¬ ({ c with point := p } : Call).Pursues t) {x : Call} (hp : x.Pursues t) :
    x ∈ (s.view.setPoint c.id p).calls ↔ x ∈ s.calls := by
  rw [View.mem_setPoint]
  constructor
  · rintro (⟨hx, _⟩ | ⟨hid, hpoint, y, hy, hyid, hreq⟩)
    · exact hx
    · obtain rfl := hs.call_eq hy hc hyid
      refine absurd hp ?_
      cases x
      cases hpoint
      cases hid
      cases hreq
      exact after
  · intro hx
    refine Or.inl ⟨hx, fun hid => before ?_⟩
    rw [← hs.call_eq hx hc hid]
    exact hp

theorem Beside.note (t : Instance) (s : State) (es : List Entry) : Beside t s (s.note es) :=
  .of_eq rfl rfl rfl

theorem Beside.report (t : Instance) (s : State) (c : Call) (r : Result) : Beside t s (s.report c r) :=
  .of_eq rfl rfl rfl

theorem Beside.send (t : Instance) (s : State) (a : Option CallId) (m : Message) :
    Beside t s (s.send a m).1 := by
  rw [send_eq]
  exact .of_eq rfl rfl rfl

theorem Beside.ensureService (t : Instance) (s : State) : Beside t s s.ensureService := by
  unfold State.ensureService
  split <;> exact .of_eq rfl rfl rfl

theorem Sound.beside_queued (hs : s.Sound) (hc : c ∈ s.calls) (idle : c.Idle) :
    Beside t s (s.setPoint c.id .queued) :=
  ⟨fun _ hp => hs.pursuer_setPoint hc (fun h => h.waits idle)
      (fun h => h.waits fun _ _ => Point.noConfusion) hp,
    rfl, rfl, fun _ he => he, fun _ _ _ _ => id⟩

/-- A call asks that is not about an attach of the tab. -/
theorem Sound.beside_asked (hs : s.Sound) (r : s.Ready c) (m : Message) (h : ¬ c.request.Seeks t) :
    Beside t s (s.asked c m) := by
  have hj := Beside.join t s c.request
  have hsend := Beside.send t (s.enter c) (some c.id) m
  refine ⟨fun x hp => ?_, hsend.attaching.trans hj.attaching, hsend.attached.trans hj.attached,
    fun hl he => hsend.enlisted (hj.live.trans hl) (hj.enlisted hl he), fun x hx hp reply hh => ?_⟩
  · show x ∈ (s.asked c m).view.calls ↔ _
    rw [view_asked s r m]
    exact hs.pursuer_setPoint (p := .awaiting _ _) r.mem (fun hp => h hp.seeks) (fun hp => h hp.seeks) hp
  · have hh : (s.enter c).Answered t x reply := hj.heard x hx hp reply hh
    unfold State.asked
    rw [send_eq]
    exact hh

/-- A call leaves that waits for something else than an attach of the tab. -/
theorem Sound.beside_quit (hs : s.Sound) {k : Ticket} {d : Nat} (hc : c ∈ s.calls)
    (hp : c.point = .awaiting k d) (h : ¬ c.request.Seeks t) : Beside t s (s.quit c k) := by
  have hleave : Beside t s (s.leave c.request k) := by
    refine .leave s c.request k fun htab ⟨x, hx, hxp⟩ => h ?_
    -- a call that waits for the tab holds it
    have hsame := hs.exclusive hx hc (hs.holds_of_pursues hx hxp)
      (hs.holder c _ k (waits_of_point hc hp))
      (Request.need?_of_tab? (Request.tab?_of_handshake? hxp.seeks)) (Request.need?_of_tab? htab)
    rw [← hsame]
    exact hxp.seeks
  refine (hleave.trans (.unmark _ h)).trans (.retire _ c fun x hx hid hxp => h ?_)
  have hcalls : ((s.leave c.request k).unmark c.request).calls = s.calls := by cases c.request <;> rfl
  rw [hcalls] at hx
  rw [← hs.call_eq hx hc hid]
  exact hxp.seeks

/-! ### Beside the course of a call -/

theorem Conclusion.beside (h : Conclusion c s s') (hs : s.Sound) : Beside t s s' := by
  cases h with
  | noted e remark => exact .note t s [e]
  | readied about ready => exact .of_eq rfl rfl rfl
  | created about e vacant => exact hs.beside_create e vacant

theorem Conclusions.beside (h : Conclusions c s s') (hs : s.Sound) : Beside t s s' := by
  induction h with
  | refl => exact .refl t s
  | tail steps step ih => exact ih.trans (step.beside (Changes.sound (Conclusions.changes steps) hs))

/-- How a wait goes on: it lasts, an attach is granted, or the call leaves and what follows is beside
every tab. -/
theorem Sound.poll_cases (hs : s.Sound) {k : Ticket} {d : Nat} (hc : c ∈ s.calls)
    (hp : c.point = .awaiting k d) (quiet : s.ousts? c k = none) :
    s.poll c k d = s ∨
      (∃ u reply, c.request.Seeks u ∧ (s.tabTable u).receiver? k = some (.answered reply) ∧
        reply.code.isOk = true ∧ s.poll c k d = s.granted c u k) ∨
      ∀ t, Beside t (s.quit c k) (s.poll c k d) := by
  have hpolled := polled s c k d
  generalize s.poll c k d = y at hpolled ⊢
  cases hpolled with
  | lasts still => exact Or.inl rfl
  | left conclusions => exact Or.inr (Or.inr fun t => conclusions.beside (hs.quit (waits_of_point hc hp)))
  | attached u l reply about heard ok =>
    exact Or.inr (Or.inl ⟨u, reply, by rw [about]; rfl, heard, ok, rfl⟩)
  | detached u reply about heard ok =>
    simp only [ousts?, about, heard, ok, if_true, reduceCtorEq] at quiet

/-- What a grant does is beside every other tab. -/
theorem Sound.beside_granted (hs : s.Sound) {k : Ticket} {d : Nat} (hc : c ∈ s.calls)
    (hp : c.point = .awaiting k d) {u : Instance} (seeks : c.request.Seeks u) (h : ¬ c.request.Seeks t) :
    Beside t s (s.granted c u k) := by
  have hne : u ≠ t := by
    rintro rfl
    exact h seeks
  have hset : Beside t (s.quit c k) ((s.quit c k).modifyTab u fun tab => { tab with attached := true }) :=
    .tweak _ u _ (fun _ _ => rfl) (fun hu => absurd hu hne) fun _ => rfl
  exact ((hs.beside_quit hc hp h).trans hset).trans (.report t _ c _)

theorem Sound.beside_poll (hs : s.Sound) {k : Ticket} {d : Nat} (hc : c ∈ s.calls)
    (hp : c.point = .awaiting k d) (quiet : s.ousts? c k = none) (h : ¬ c.request.Seeks t) :
    Beside t s (s.poll c k d) := by
  rcases hs.poll_cases hc hp quiet with he | ⟨u, _, seeks, _, _, he⟩ | hb
  · rw [he]
    exact .refl t s
  · rw [he]
    exact hs.beside_granted hc hp seeks h
  · exact (hs.beside_quit hc hp h).trans (hb t)

theorem Sound.beside_ask (hs : s.Sound) (r : s.Ready c) (m : Message) (h : ¬ c.request.Seeks t) :
    Beside t s (s.ask c m) := by
  have hasked := hs.asked r m
  have hseated := (hs.waits_seated r m).1
  have ha := hs.beside_asked r m h
  rcases ask_cases s c m with ⟨sent, he⟩ | ⟨e, unsent, hleft⟩
  · rw [he]
    exact ha.trans (hasked.beside_poll (c := s.seated c) hseated rfl (hs.ousts_seated r m) h)
  · have hq : Beside t (s.asked c m) (s.refused c m) := hasked.beside_quit (c := s.seated c) hseated rfl h
    exact (ha.trans hq).trans (hleft.beside (hs.refused r m))

theorem Poised.not_pursues (p : s.Poised c) (hs : s.Sound) {x : Call} (hx : x ∈ s.calls)
    (hid : x.id = c.id) : ¬ x.Pursues t := by
  obtain rfl := hs.call_eq hx p.mem hid
  exact fun hp => hp.waits p.idle

theorem Poised.beside_finish (p : s.Poised c) (hs : s.Sound) (r : Result) : Beside t s (s.finish c r) :=
  (Beside.retire s c fun _ hx hid => p.not_pursues hs hx hid).trans (.report t _ c r)

/-- What a call prepares is beside a tab that it is no attach of. -/
theorem Preparation.beside (h : Preparation c s s') (hs : s.Sound) (other : ¬ c.request.Seeks t) :
    Beside t s s' := by
  cases h with
  | served free => exact .ensureService t s
  | started about service => exact .of_eq rfl rfl rfl
  | purged about => exact .purge t s
  | marked u l about =>
    refine .mark s l ?_
    rintro rfl
    exact other (by rw [about]; rfl)
  | enrolled u l tab about known vacant => exact hs.beside_enroll vacant u

theorem Preparations.beside (h : Preparations c s s') (hs : s.Sound) (p : s.Poised c)
    (other : ¬ c.request.Seeks t) : Beside t s s' := by
  induction h with
  | refl => exact .refl t s
  | tail steps step ih => exact ih.trans (step.beside (Preparations.changes steps hs p).2.1 other)

theorem Sound.beside_begin (hs : s.Sound) (p : s.Poised c) (h : ¬ c.request.Seeks t) :
    Beside t s (s.begin c) := by
  have hbegun := begun s c
  generalize s.begin c = y at hbegun ⊢
  cases hbegun with
  | asks x prepared fits =>
    obtain ⟨_, hx, px⟩ := prepared.changes hs p
    exact (prepared.beside hs p h).trans (hx.beside_ask (px.ready hx fits) _ h)
  | leaves x prepared r remark =>
    obtain ⟨_, hx, px⟩ := prepared.changes hs p
    have hsu := (Change.unmarked c.request).sound hx
    exact ((prepared.beside hs p h).trans (.unmark x h)).trans ((px.unmarked _).beside_finish hsu r)

/-- An attach that begins marks its tab, which may take a place in the registry. Then it asks, or it
takes the mark away again and leaves. -/
theorem Sound.beginAttach_cases (hs : s.Sound) (p : s.Poised c) {u : Instance} {l : Listener}
    (hr : c.request = .attach u l) :
    ∃ x : State, x.Sound ∧ x.Poised c ∧ x.isAttaching u = true ∧ x.isAttached u = s.isAttached u ∧
      (∀ t, t ≠ u → Beside t s x) ∧
      ((∃ m, x.Ready c ∧ s.beginAttach c u l = x.ask c m) ∨
        ∃ r, s.beginAttach c u l = (x.unmark c.request).finish c r) := by
  have htab : c.request.tab? = some u := by rw [hr]; rfl
  have hu := hs.hasTab p.mem u htab
  obtain ⟨tab, ht⟩ := Option.isSome_iff_exists.mp hu
  have hplaced := preparations_placed s hr
  obtain ⟨_, hx, px⟩ := hplaced.changes hs p
  refine ⟨s.placed u l, hx, px, ?_, ?_, fun t hne => ?_, ?_⟩
  · unfold isAttaching
    rw [tab?_placed, ht]
    rfl
  · unfold isAttached
    rw [tab?_placed, ht]
    rfl
  · refine hplaced.beside hs p ?_
    rw [hr]
    rintro ⟨⟩
    exact hne rfl
  · rcases beginAttach_asks_or_leaves s c u l with ⟨_, known, free, h⟩ | ⟨e, h⟩
    · exact Or.inl ⟨_, (p.ready_placed hs hr known free).2, h⟩
    · exact Or.inr ⟨_, h⟩

/-! ### Actions -/

theorem Beside.lined (t : Instance) (s : State) (c : Call) : Beside t s (s.lined c) := by
  unfold State.lined
  split
  · exact .changeLock t s _ _
  · exact .refl t s

/-- Until it begins, or while it waits, a call leaves every tab as it is. -/
theorem Sound.resume_cases (hs : s.Sound) (hc : c ∈ s.calls) :
    (∃ x, (∀ t, Beside t s x) ∧ x.Sound ∧ x.Poised c ∧ s.resume c = x.begin c) ∨
      (∀ t, Beside t s (s.resume c)) ∨
      ∃ k d, c.point = .awaiting k d ∧ s.resume c = s.poll c k d := by
  have hlined := fun t => Beside.lined t s c
  by_cases admits : s.Admits c
  · exact Or.inl ⟨_, hlined, hs.lined hc, hs.poised_of_admits hc admits, resume_of_admits admits⟩
  · rcases resume_of_not_admits admits with ⟨_, h⟩ | ⟨hp, h⟩ | hpoll
    · refine Or.inr (Or.inl fun t => ?_)
      rw [h]
      exact .refl t s
    · have hc' : c ∈ (s.lined c).calls := by
        rw [calls_lined]
        exact hc
      refine Or.inr (Or.inl fun t => ?_)
      rw [h]
      exact (hlined t).trans ((hs.lined hc).beside_queued hc' fun k d he => by rw [hp] at he; cases he)
    · exact Or.inr (Or.inr hpoll)

theorem Sound.beside_resume (hs : s.Sound) (hc : c ∈ s.calls) (quiet : s.ousting? c = none)
    (h : ¬ c.request.Seeks t) : Beside t s (s.resume c) := by
  rcases hs.resume_cases hc with ⟨x, hb, hsx, px, he⟩ | hb | ⟨k, d, hp, he⟩
  · rw [he]
    exact (hb t).trans (hsx.beside_begin px h)
  · exact hb t
  · rw [he]
    exact hs.beside_poll hc hp (ousts_of_ousting quiet k d hp) h

theorem Answer.beside {d : Desk} {command : String} (h : Answer s d command s') : Beside t s s' := by
  cases h with
  | session p known v => exact .of_eq rfl rfl rfl
  | separate v => exact .of_eq rfl rfl rfl
  | tab u known v => exact .setTabTable s u _ fun _ _ => answered_complete _ _

theorem Beside.start (t : Instance) (s : State) (id : CallId) (r : Request) :
    Beside t s (s.start id r) := by
  unfold State.start
  split
  · exact .refl t s
  · refine ⟨fun x hp => ?_, rfl, rfl, fun _ he => he, fun _ _ _ _ h => h⟩
    refine ⟨fun hx => (List.mem_append.mp hx).resolve_right fun hn => ?_,
      fun hx => List.mem_append_left _ hx⟩
    rw [List.mem_singleton.mp hn] at hp
    exact hp.waits fun _ _ => Point.noConfusion

theorem Incident.beside {a : Action} (h : Incident a s s') : Beside t s s' := by
  cases h with
  | noted es plain may => exact .note t s es
  | tweaked u f keeps attaching =>
    exact .tweak s u f (fun _ => attaching) (fun _ => keeps.attached) keeps.pending
  | answered h heard routed => exact Answer.beside h
  | _ => exact .of_eq rfl rfl rfl

theorem Incidents.beside {a : Action} (h : Incidents a s s') : Beside t s s' := by
  induction h with
  | refl => exact .refl t s
  | tail _ step ih => exact ih.trans step.beside

/-- What ends nothing and is not the going on of a call is beside every tab. -/
theorem beside_act {a : Action} (quiet : s.occasion? a = none)
    (resumed : ∀ id, a ≠ .resume id) (cancelled : ∀ id, a ≠ .cancel id) : Beside t s (s.act a) := by
  cases a with
  | start id r => exact .start t s id r
  | resume id => exact absurd rfl (resumed id)
  | cancel id => exact absurd rfl (cancelled id)
  | _ => exact Incidents.beside (incidents_act rfl quiet)

/-- What ends nothing is beside a tab that a call pursues, but for what this call does. -/
theorem Sound.beside_act_of_pursues (hs : s.Sound) {a : Action} (quiet : s.occasion? a = none)
    (hc : c ∈ s.calls) (hp : c.Pursues t) (resumed : a ≠ .resume c.id) (cancelled : a ≠ .cancel c.id) :
    Beside t s (s.act a) := by
  have others : ∀ x ∈ s.calls, x.id ≠ c.id → ¬ x.Pursues t := by
    intro x hx hne hxp
    exact hne (congrArg Call.id (hs.pursuer_eq hc hx hp.seeks (hs.holds_of_pursues hc hp) hxp))
  cases a with
  | resume id =>
    simp only [State.act]
    cases hid : s.call? id with
    | none => exact .refl t s
    | some x =>
      obtain ⟨hx, rfl⟩ := call_of_call? hid
      have hne : x.id ≠ c.id := fun he => resumed (by rw [he])
      have quiet' : s.ousting? x = none := by simpa only [occasion?, hid, Option.bind_some] using quiet
      by_cases seeks : x.request.Seeks t
      · -- it waits for its turn, since the one that pursues the tab holds it
        dsimp only
        rcases hs.resume_cases hx with ⟨y, hb, hsy, py, _⟩ | hb | ⟨k, d, hpoint, _⟩
        · have hcy := ((hb t).pursuers c hp).mpr hc
          exact absurd (congrArg Call.id (hsy.pursuer_eq py.mem hcy seeks py.holds hp)).symm hne
        · exact hb t
        · exact absurd ⟨seeks, fun idle => idle k d hpoint⟩ (others x hx hne)
      · exact hs.beside_resume hx quiet' seeks
  | cancel id =>
    simp only [State.act, State.cancel]
    cases hid : s.call? id with
    | none => exact .refl t s
    | some x =>
      obtain ⟨hx, rfl⟩ := call_of_call? hid
      have hne : x.id ≠ c.id := fun he => cancelled (by rw [he])
      dsimp only
      split
      · next k d hpoint =>
        exact hs.beside_quit hx hpoint fun seeks =>
          others x hx hne ⟨seeks, fun idle => idle k d hpoint⟩
      · refine .retire s x fun y hy hid' => ?_
        rw [hs.call_eq hy hx hid']
        exact others x hx hne
  | _ => exact beside_act quiet (fun _ => Action.noConfusion) fun _ => Action.noConfusion

/-- Until something ends, at most a detach stops waiting. -/
theorem Sound.beside_before (hs : s.Sound) {a : Action} {o : Occasion} (h : s.occasion? a = some o) :
    Beside t s o.before := by
  cases outside : a.isOutside with
  | true => exact Incidents.beside (incidents_before outside h).1
  | false =>
    cases arises h with
    | granted c k d u mem waits about =>
      refine hs.beside_quit mem waits ?_
      rw [about]
      exact fun h => by cases h
    | _ => cases outside

end State
end RemoteDebug.Engine
