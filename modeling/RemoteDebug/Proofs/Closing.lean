import RemoteDebug.Proofs.Anchor
import RemoteDebug.Proofs.Pairing

/-! What is left when a connection has closed.

However a cascade runs, it closes the connection at most once, and the session hears
of that once. A tab that was attached and is not any more is out of the registry, or is
about to be; a tab that was not attached keeps its place, unless it is the one that
the session was told is finished. -/
namespace RemoteDebug.Engine
open Protocol Wire

def Entry.isClosing : Entry → Bool
  | .connectionClosed => true
  | _ => false

/-- How often the session heard that its connection closed. -/
def closings (es : List Entry) : Nat := es.countP Entry.isClosing

namespace State

variable {s b x : State} {duties rest : List Duty} {o : Occasion}

/-! ### The connection -/

/-- The connection is as it was, or has closed once and for the session to hear. -/
def Shut (b x : State) : Prop :=
  ∃ news, x.journal = b.journal ++ news ∧
    ((x.connection.connected = true ∧ x.connection.closes = b.connection.closes ∧
        closings news = 0) ∨
      (x.connection.connected = false ∧ x.connection.closes = b.connection.closes + 1 ∧
        closings news = 1 ∧ x.networkReady = false))

theorem Shut.refl (connected : b.connection.connected = true) : Shut b b :=
  ⟨[], (List.append_nil _).symm, Or.inl ⟨connected, rfl, rfl⟩⟩

/-- The connection stays as it is, and whatever is noted is not its end. -/
theorem Shut.still (h : Shut b x) {y : State} {es : List Entry} (journal : y.journal = x.journal ++ es)
    (connection : y.connection = x.connection) (ready : y.networkReady = x.networkReady)
    (others : closings es = 0) : Shut b y := by
  obtain ⟨news, hj, hc⟩ := h
  have hcount : closings (news ++ es) = closings news := by
    show (news ++ es).countP _ = _
    rw [List.countP_append, show es.countP Entry.isClosing = 0 from others]
    rfl
  refine ⟨news ++ es, by rw [journal, hj, List.append_assoc], ?_⟩
  rw [connection, ready, hcount]
  exact hc

theorem Shut.close (h : Shut b x) (ha : x.Attentive) : Shut b x.close.1 := by
  cases hc : x.connection.connected with
  | false =>
    rw [close_of_disconnected hc]
    exact h
  | true =>
    obtain ⟨news, hj, ⟨_, hcloses, hnone⟩ | ⟨hdown, _⟩⟩ := h
    · have hcount : closings (news ++ [.connectionClosed]) = 1 := by
        show (news ++ _).countP _ = _
        rw [List.countP_append, show news.countP Entry.isClosing = 0 from hnone]
        rfl
      unfold State.close
      rw [if_pos hc, if_pos (ha.listens hc)]
      refine ⟨news ++ [.connectionClosed], ?_, Or.inr ⟨rfl, ?_, hcount, rfl⟩⟩
      · show x.journal ++ _ = _
        rw [hj, List.append_assoc]
      · exact congrArg (· + 1) hcloses
    · rw [hc] at hdown
      cases hdown

theorem closings_farewell (s : State) (t : Instance) : closings (s.farewell t) = 0 := by
  unfold farewell told
  split <;> rfl

theorem Shut.perform (h : Shut b x) (ha : x.Attentive) (d : Duty) : Shut b (x.perform d).1 := by
  cases d with
  | detach t =>
    unfold State.perform
    dsimp only
    split
    · rw [announceDetached_eq]
      exact h.still rfl rfl rfl (closings_farewell _ t)
    · exact h.still (List.append_nil _).symm rfl rfl rfl
  | terminate id =>
    rw [registry_terminate]
    exact h.still (List.append_nil _).symm rfl rfl rfl
  | closeIfIdle =>
    rw [perform_closeIfIdle]
    split
    · exact h
    · exact h.close ha

theorem Shut.unwind (h : Shut b x) (ha : x.Attentive) (duties : List Duty) :
    Shut b (x.unwind duties) :=
  (unwind_induction (P := fun x _ => x.Attentive ∧ Shut b x)
    (fun _ d _ ⟨ha, h⟩ => ⟨ha.perform d, h.perform ha d⟩) x duties ⟨ha, h⟩).2

theorem browser_close (s : State) : s.close.1.browser = s.browser := by
  unfold State.close
  split
  · split <;> rfl
  · rfl

theorem browser_perform (x : State) (d : Duty) : (x.perform d).1.browser = x.browser := by
  cases d with
  | detach u =>
    unfold State.perform
    dsimp only
    split
    · rw [announceDetached_eq]
      rfl
    · rfl
  | terminate id =>
    rw [registry_terminate]
  | closeIfIdle =>
    rw [perform_closeIfIdle]
    split
    · rfl
    · exact browser_close x

theorem alive_close (s : State) : s.close.1.alive = s.alive := by
  unfold State.alive
  rw [browser_close, calls_close]

theorem alive_perform (x : State) (d : Duty) : (x.perform d).1.alive = x.alive := by
  unfold State.alive
  rw [browser_perform, calls_perform]

/-! ### Tabs that were attached -/

/-- An instance that was attached still is, or has left the registry, or is about to. -/
def Cleared (b x : State) (duties : List Duty) : Prop :=
  ∀ t, b.isAttached t = true → x.isAttached t = true ∨ ¬ x.Enlisted t ∨
    ∃ id, x.view.ident t = some id ∧ .terminate id ∈ duties

theorem ident_of_attached {t : Instance} (h : s.isAttached t = true) :
    ∃ tab, s.tab? t = some tab ∧ s.view.ident t = some tab.id := by
  unfold isAttached at h
  cases ht : s.tab? t with
  | none =>
    rw [ht] at h
    cases h
  | some tab => exact ⟨tab, rfl, by show (s.tab? t).map _ = _; rw [ht]; rfl⟩

/-- An instance that is detached has its session drop the tab. -/
theorem duties_detach {t : Instance} {id : TabId} (alive : s.alive = true)
    (ha : s.isAttached t = true) (hid : s.view.ident t = some id) :
    (s.perform (.detach t)).2 = [.terminate id] := by
  have hid' : (s.tab? t).map (·.id) = some id := hid
  obtain ⟨tab, ht, rfl⟩ := Option.map_eq_some_iff.mp hid'
  unfold perform
  simp only [ha, alive, ht, if_true]
  rfl

theorem duties_detach_of_unattached {t : Instance} (ha : s.isAttached t = false) :
    (s.perform (.detach t)).2 = [] := by
  unfold perform
  simp only [ha, Bool.false_eq_true, if_false]

/-- Once a tab is dropped, what is left to do looks after the connection. -/
theorem closeIfIdle_mem_terminate (s : State) (id : TabId) : .closeIfIdle ∈ (s.perform (.terminate id)).2 := by
  unfold perform
  dsimp only
  split
  · exact List.mem_singleton.mpr rfl
  · split <;> simp

theorem Cleared.detach {t : Instance} (h : Cleared b x (.detach t :: rest)) (alive : x.alive = true) :
    Cleared b (x.perform (.detach t)).1 ((x.perform (.detach t)).2 ++ rest) := by
  intro u hu
  unfold Enlisted
  rw [attached_detach, registry_detach, ident_detach]
  rcases h u hu with ha | hout | ⟨id, hid, hm⟩
  · split
    · next hut =>
      subst hut
      obtain ⟨tab, _, hid⟩ := ident_of_attached ha
      refine Or.inr (Or.inr ⟨tab.id, hid, List.mem_append_left _ ?_⟩)
      rw [duties_detach alive ha hid]
      exact List.mem_singleton.mpr rfl
    · exact Or.inl ha
  · exact Or.inr (Or.inl hout)
  · exact Or.inr (Or.inr ⟨id, hid, List.mem_append_right _ (mem_of_ne_cons hm Duty.noConfusion)⟩)

theorem Cleared.terminate {id : TabId} (h : Cleared b x (.terminate id :: rest)) (hs : x.Sound) :
    Cleared b (x.perform (.terminate id)).1 ((x.perform (.terminate id)).2 ++ rest) := by
  intro u hu
  rw [registry_terminate]
  rcases h u hu with ha | hout | ⟨k, hk, hm⟩
  · exact Or.inl ha
  · exact Or.inr (Or.inl fun ⟨k, hm⟩ => hout ⟨k, List.mem_of_mem_filter hm⟩)
  · by_cases hid : k = id
    · subst hid
      refine Or.inr (Or.inl ?_)
      -- its id is struck, and it has no other
      rintro ⟨j, hj⟩
      obtain ⟨hj, hne⟩ := List.mem_filter.mp hj
      have hown := hs.own j u hj
      rw [hk] at hown
      cases hown
      simp at hne
    · refine Or.inr (Or.inr ⟨k, hk, List.mem_append_right _ (mem_of_ne_cons hm fun he => hid ?_)⟩)
      exact Duty.terminate.inj he

theorem Cleared.perform {d : Duty} (h : Cleared b x (d :: rest)) (hs : x.Sound)
    (alive : x.alive = true) : Cleared b (x.perform d).1 ((x.perform d).2 ++ rest) := by
  cases d with
  | detach t => exact h.detach alive
  | terminate id => exact h.terminate hs
  | closeIfIdle =>
    have more : ∀ {y : State} {ds : List Duty}, y.view.attached = x.view.attached →
        y.view.registry = x.view.registry → y.view.ident = x.view.ident → Cleared b y (ds ++ rest) := by
      intro y ds hattached hregistry hident u hu
      unfold Enlisted
      rw [show y.isAttached u = x.isAttached u from congrFun hattached u, hident,
        show y.registry = x.registry from hregistry]
      rcases h u hu with ha | hout | ⟨id, hid, hm⟩
      · exact Or.inl ha
      · exact Or.inr (Or.inl hout)
      · exact Or.inr (Or.inr ⟨id, hid, List.mem_append_right _ (mem_of_ne_cons hm Duty.noConfusion)⟩)
    rw [perform_closeIfIdle]
    split
    · exact more rfl rfl rfl
    · have hv := view_close x
      refine more ?_ ?_ ?_ <;> rw [hv] <;> split <;> rfl

theorem Cleared.unwind (h : Cleared b x duties) (hs : x.Sound) (alive : x.alive = true) :
    Cleared b (x.unwind duties) [] :=
  (unwind_induction (P := fun x ds => x.Sound ∧ x.alive = true ∧ Cleared b x ds)
    (fun x d _ ⟨hs, ha, h⟩ => ⟨hs.perform d, (alive_perform x d).trans ha, h.perform hs ha⟩) x duties
    ⟨hs, alive, h⟩).2.2

theorem Cleared.start (b : State) (duties : List Duty) : Cleared b b duties := fun _ ha => Or.inl ha

theorem Sound.cleared_fire (hs : b.Sound) (alive : b.alive = true) (k : Trigger) :
    Cleared b (b.fire k) [] := by
  cases k with
  | close =>
    refine Cleared.unwind (fun u hu => Or.inl ?_) hs.close ((alive_close b).trans alive)
    rw [isAttached_close]
    exact hu
  | detached t => exact (Cleared.start b _).unwind hs alive
  | terminated id => exact (Cleared.start b _).unwind hs alive

/-! ### Tabs that were not attached -/

/-- A tab keeps its place in the registry: neither is its id to be struck, nor is an instance of it to
be detached that is attached. -/
structure Spared (id : TabId) (t : Instance) (x : State) (duties : List Duty) : Prop where
  kept : (id, t) ∈ x.registry
  unnamed : .terminate id ∉ duties
  alone : ∀ u, x.isAttached u = true → x.view.ident u = some id →
    ¬ x.Enlisted u ∧ .detach u ∉ duties

variable {id : TabId} {t : Instance}

theorem Spared.tail {d : Duty} (h : Spared id t x (d :: rest)) : Spared id t x rest where
  kept := h.kept
  unnamed := fun hm => h.unnamed (List.mem_cons_of_mem _ hm)
  alone := fun u hu hid => (h.alone u hu hid).imp_right fun hn hm => hn (List.mem_cons_of_mem _ hm)

/-- What is left to do grows by duties that do not concern the tab. -/
theorem Spared.more {y : State} {ds : List Duty} (h : Spared id t x rest) (kept : (id, t) ∈ y.registry)
    (fewer : ∀ r ∈ y.registry, r ∈ x.registry) (ident : y.view.ident = x.view.ident)
    (attached : ∀ u, y.isAttached u = true → x.isAttached u = true) (unnamed : .terminate id ∉ ds)
    (alone : ∀ u, .detach u ∈ ds → x.Enlisted u) : Spared id t y (ds ++ rest) where
  kept := kept
  unnamed := fun hm => (List.mem_append.mp hm).elim unnamed h.unnamed
  alone := by
    intro u hu hid
    rw [ident] at hid
    obtain ⟨hout, hno⟩ := h.alone u (attached u hu) hid
    refine ⟨fun ⟨k, hk⟩ => hout ⟨k, fewer _ hk⟩, fun hm => ?_⟩
    rcases List.mem_append.mp hm with hm | hm
    · exact hout (alone u hm)
    · exact hno hm

/-- The tab of an instance that is detached is dropped, and nothing more. -/
theorem duty_of_detach {u : Instance} {d : Duty} (h : d ∈ (x.perform (.detach u)).2) :
    ∃ k, d = .terminate k ∧ x.alive = true ∧ x.isAttached u = true ∧ x.view.ident u = some k := by
  cases ha : x.isAttached u with
  | false =>
    rw [duties_detach_of_unattached ha] at h
    cases h
  | true =>
    cases alive : x.alive with
    | false =>
      unfold State.perform at h
      simp only [ha, alive, if_true, Bool.false_eq_true, if_false] at h
      cases h
    | true =>
      obtain ⟨tab, _, hid⟩ := ident_of_attached ha
      rw [duties_detach alive ha hid, List.mem_singleton] at h
      exact ⟨tab.id, h, rfl, rfl, hid⟩

theorem Spared.detach {u : Instance} (h : Spared id t x (.detach u :: rest)) :
    Spared id t (x.perform (.detach u)).1 ((x.perform (.detach u)).2 ++ rest) := by
  refine h.tail.more ?_ ?_ (ident_detach x u) (fun w hw => ?_) (fun hm => ?_) fun w hm => ?_
  · rw [registry_detach]
    exact h.kept
  · rw [registry_detach]
    exact fun _ hm => hm
  · rw [attached_detach] at hw
    split at hw
    · cases hw
    · exact hw
  · obtain ⟨k, hk, _, ha, hid⟩ := duty_of_detach hm
    obtain rfl := Duty.terminate.inj hk
    exact (h.alone u ha hid).2 (List.mem_cons_self ..)
  · obtain ⟨k, hk, _⟩ := duty_of_detach hm
    cases hk

/-- When the tab of an id is dropped, the instance that was registered under it is to be detached, and
the connection is to be closed if it is idle. -/
theorem duty_of_terminate {k : TabId} {d : Duty} (h : d ∈ (x.perform (.terminate k)).2) :
    d = .closeIfIdle ∨ ∃ w, d = .detach w ∧ x.registered? k = some w := by
  unfold State.perform at h
  dsimp only at h
  split at h
  · exact Or.inl (List.mem_singleton.mp h)
  · next w hw =>
    split at h
    · rcases List.mem_cons.mp h with hd | hd
      · exact Or.inr ⟨w, hd, hw⟩
      · exact Or.inl (List.mem_singleton.mp hd)
    · exact Or.inl (List.mem_singleton.mp h)

theorem Spared.terminate {k : TabId} (h : Spared id t x (.terminate k :: rest)) :
    Spared id t (x.perform (.terminate k)).1 ((x.perform (.terminate k)).2 ++ rest) := by
  refine h.tail.more ?_ ?_ ?_ ?_ (fun hm => ?_) fun u hm => ?_
  · rw [registry_terminate]
    refine List.mem_filter.mpr ⟨h.kept, bne_iff_ne.mpr ?_⟩
    rintro rfl
    exact h.unnamed (List.mem_cons_self ..)
  · rw [registry_terminate]
    exact fun _ hm => List.mem_of_mem_filter hm
  · rw [registry_terminate]
    rfl
  · rw [registry_terminate]
    exact fun _ hm => hm
  · rcases duty_of_terminate hm with hd | ⟨_, hd, _⟩ <;> cases hd
  · rcases duty_of_terminate hm with hd | ⟨w, hd, hw⟩
    · cases hd
    · exact ⟨k, Duty.detach.inj hd ▸ mem_of_lookup hw⟩

theorem Spared.close (h : Spared id t x rest) : Spared id t x.close.1 (x.close.2 ++ rest) := by
  have hduties : ∀ d ∈ x.close.2, ∃ r ∈ x.registry, d = .detach r.2 := by
    intro d hd
    unfold State.close at hd
    split at hd
    · split at hd
      · obtain ⟨r, hr, rfl⟩ := List.mem_map.mp hd
        exact ⟨r, hr, rfl⟩
      · cases hd
    · cases hd
  refine h.more ?_ ?_ ?_ ?_ (fun hm => ?_) fun u hm => ?_
  · rw [registry_close]
    exact h.kept
  · rw [registry_close]
    exact fun _ hm => hm
  · rw [view_close]
    split <;> rfl
  · intro u hu
    rw [isAttached_close] at hu
    exact hu
  · obtain ⟨_, _, hd⟩ := hduties _ hm
    cases hd
  · obtain ⟨r, hr, hd⟩ := hduties _ hm
    exact ⟨r.1, Duty.detach.inj hd ▸ hr⟩

theorem Spared.perform {d : Duty} (h : Spared id t x (d :: rest)) :
    Spared id t (x.perform d).1 ((x.perform d).2 ++ rest) := by
  cases d with
  | detach u => exact h.detach
  | terminate k => exact h.terminate
  | closeIfIdle =>
    rw [perform_closeIfIdle]
    split
    · exact h.tail
    · exact h.tail.close

theorem Spared.unwind (h : Spared id t x duties) : Spared id t (x.unwind duties) [] :=
  unwind_induction (P := fun x ds => Spared id t x ds) (fun _ _ _ h => h.perform) x duties h

/-- A tab that is registered and not attached is spared by what does not name it. -/
theorem Sound.spared (hs : b.Sound) (hm : b.registered? id = some t) (ha : b.isAttached t = false) :
    Spared id t b [] where
  kept := mem_of_lookup hm
  unnamed := List.not_mem_nil
  alone := by
    intro u hu hid
    refine ⟨fun he => ?_, List.not_mem_nil⟩
    have hr := (hs.enlisted_iff hid).mp he
    rw [hm] at hr
    cases hr
    rw [ha] at hu
    cases hu

end State

/-- What ends has the session told that the tab of an id is finished: it is told so, or an instance of
the id is detached that is not the registered one any more. -/
def Trigger.names (s : State) : Trigger → TabId → Prop
  | .close, _ => False
  | .terminated k, id => k = id
  | .detached t, id => s.view.ident t = some id ∧ s.registered? id ≠ some t

namespace State

variable {b : State} {id : TabId} {t : Instance}

theorem Sound.spared_fire (hs : b.Sound) (hm : b.registered? id = some t)
    (hu : b.isAttached t = false) {k : Trigger} (unnamed : ¬ k.names b id) :
    Spared id t (b.fire k) [] := by
  have h := hs.spared hm hu
  cases k with
  | close =>
    have hc := h.close
    rw [List.append_nil] at hc
    exact hc.unwind
  | detached u =>
    refine Spared.unwind { h with unnamed := by simp, alone := fun w hw hid => ?_ }
    refine ⟨(h.alone w hw hid).1, fun hm' => ?_⟩
    obtain rfl := Duty.detach.inj (List.mem_singleton.mp hm')
    refine unnamed ⟨hid, fun hr => ?_⟩
    rw [hm] at hr
    cases hr
    rw [hu] at hw
    cases hw
  | terminated k =>
    refine Spared.unwind { h with unnamed := fun hm' => unnamed ?_, alone := fun w hw hid => ?_ }
    · exact (Duty.terminate.inj (List.mem_singleton.mp hm')).symm
    · exact ⟨(h.alone w hw hid).1, by simp⟩

end State
end RemoteDebug.Engine
