import RemoteDebug.Proofs.Closing
import RemoteDebug.Proofs.Pursuit

/-! What a tab touches that reports that it is finished.

A tab reports to its session by its id, so the report of an instance that is not registered is taken
for one of the instance that is: that one leaves the registry and is detached, and the connection
closes if no live tab is left. Every other instance keeps its attachment, its exchange and its peace,
also in the cascade by which the connection closes: then no registered tab is live, and a tab that is
not live has nothing to lose. -/
namespace RemoteDebug.Engine
open Protocol Wire

namespace State

variable {b x : State} {id : TabId} {t : Instance} {duties rest : List Duty}

/-- Cutting off a tab concerns nobody who waits elsewhere, nor anybody if nobody there hears nothing
yet. -/
theorem Sound.awaits_cutOff (hs : x.Sound) {u : Instance} (h : Handshake) (r : Receiver Unit)
    (apart : t = u → ∀ h, ¬ x.view.Awaits h u .waiting) :
    (x.view.cutOff u).Awaits h t r ↔ x.view.Awaits h t r := by
  by_cases ht : t = u
  · subst ht
    have silent := apart rfl
    have hb := hs.boards (.tab t)
    have heard : ∀ k, ((x.view.cutOff t).board (.tab t)).receiver? k =
        ((x.view.board (.tab t)).receiver? k).map Pending.orphaned := by
      intro k
      show ((x.view.setBoard (.tab t) _).board (.tab t)).receiver? k = _
      rw [View.board_setBoard, if_pos rfl, hb.receiver?_failAll]
    constructor
    · rintro ⟨c, k, hw, hc, hr⟩
      rw [heard] at hr
      obtain ⟨r', hr', rfl⟩ := Option.map_eq_some_iff.mp hr
      cases r' with
      | waiting => exact absurd ⟨c, k, hw, hc, hr'⟩ (silent h)
      | _ => exact ⟨c, k, hw, hc, hr'⟩
    · rintro ⟨c, k, hw, hc, hr⟩
      refine ⟨c, k, hw, hc, ?_⟩
      rw [heard, hr]
      cases r with
      | waiting => exact absurd ⟨c, k, hw, hc, hr⟩ (silent h)
      | _ => rfl
  · have same : (x.view.cutOff u).board (.tab t) = x.view.board (.tab t) := by
      show (x.view.setBoard (.tab u) _).board (.tab t) = _
      rw [View.board_setBoard, if_neg (by simpa using ht)]
    unfold View.Awaits
    rw [same]
    exact Iff.rfl

theorem awaits_close_iff (x : State) (h : Handshake) (t : Instance) (r : Receiver Unit) :
    x.close.1.view.Awaits h t r ↔ x.view.Awaits h t r := by
  rw [view_close]
  split
  · have same : (x.view.setBoard .session (x.view.board .session).failAll).board (.tab t) =
        x.view.board (.tab t) := by
      rw [View.board_setBoard, if_neg (by simp)]
    unfold View.Awaits
    rw [same]
    exact Iff.rfl
  · exact Iff.rfl

theorem tabEvents_farewell_of_ne (x : State) {u : Instance} (h : t ≠ u) :
    tabEvents t (x.farewell u) = [] := by
  rw [← tabEvents_filter, filter_farewell, if_neg h]
  rfl

/-- The connection once the session was told that the tab of an id is finished. -/
def linkAfter (b : State) (id : TabId) : Connection :=
  if b.connection.connected && !(b.strike id).hasLive then b.connection.close else b.connection

/-- A duty that concerns the tab of an id, or nobody who could notice. -/
def Harmless (b : State) (id : TabId) (x : State) (d : Duty) : Prop :=
  d = .closeIfIdle ∨ d = .terminate id ∨ ∃ v, d = .detach v ∧
    (b.registered? id = some v ∨ (x.isAttached v = false ∧ ∀ h, ¬ x.view.Awaits h v .waiting))

/-- What is done where a session was told that the tab of an id is finished concerns this tab and the
connection only. -/
structure Confined (b : State) (id : TabId) (x : State) (duties : List Duty) : Prop where
  registry : x.registry = b.registry.filter (·.1 != id)
  ident : x.view.ident = b.view.ident
  calls : x.calls = b.calls
  attaching : ∀ v, x.isAttaching v = b.isAttaching v
  attached : ∀ v, b.registered? id ≠ some v → x.isAttached v = b.isAttached v
  awaits : ∀ v, b.registered? id ≠ some v → ∀ h r, x.view.Awaits h v r ↔ b.view.Awaits h v r
  silent : ∃ news, x.journal = b.journal ++ news ∧
    ∀ v, b.registered? id ≠ some v → tabEvents v news = []
  connection : (x.connection = b.connection ∧ .closeIfIdle ∈ duties) ∨ x.connection = b.linkAfter id
  harmless : ∀ d ∈ duties, Harmless b id x d

theorem Harmless.perform {e : Duty} (h : Harmless b id x e) (hs : x.Sound) (d : Duty) :
    Harmless b id (x.perform d).1 e := by
  rcases h with h | h | ⟨v, h, hv | ⟨ha, hw⟩⟩
  · exact Or.inl h
  · exact Or.inr (Or.inl h)
  · exact Or.inr (Or.inr ⟨v, h, Or.inl hv⟩)
  · refine Or.inr (Or.inr ⟨v, h, Or.inr ⟨?_, fun hh hw' => ?_⟩⟩)
    · cases d with
      | detach u =>
        rw [attached_detach, ha]
        exact ite_self _
      | terminate k =>
        rw [registry_terminate]
        exact ha
      | closeIfIdle =>
        rw [perform_closeIfIdle]
        split
        · exact ha
        · rw [isAttached_close]
          exact ha
    · rcases hs.awaits_perform d hw' with ⟨hw', _⟩ | hr
      · exact hw hh hw'
      · cases hr

/-- The tabs that are left in the registry are as live as they were. -/
theorem Confined.hasLive (h : Confined b id x duties) (hb : b.Sound) :
    x.hasLive = (b.strike id).hasLive := by
  have hl : ∀ r ∈ b.registry.filter (·.1 != id), x.isLive r.2 = b.isLive r.2 := by
    intro r hr
    obtain ⟨hr, hne⟩ := List.mem_filter.mp hr
    rw [isLive_eq, isLive_eq, h.attaching, h.attached]
    intro hreg
    have hown := hb.own r.1 r.2 hr
    rw [hb.own id r.2 (mem_of_lookup hreg)] at hown
    cases hown
    simp at hne
  show x.registry.any _ = (b.registry.filter (·.1 != id)).any _
  rw [h.registry, Bool.eq_iff_iff, List.any_eq_true, List.any_eq_true]
  refine exists_congr fun r => and_congr_right fun hr => ?_
  rw [hl r hr]
  rfl

theorem mem_append_of_cons {d e : Duty} {ds : List Duty} (h : e ∈ d :: rest) (hne : e ≠ d) :
    e ∈ ds ++ rest :=
  List.mem_append_right _ (mem_of_ne_cons h hne)

theorem journal_detach_of_unattached {u : Instance} (ha : x.isAttached u = false) :
    (x.perform (.detach u)).1.journal = x.journal := by
  unfold State.perform
  dsimp only
  rw [if_neg (Bool.eq_false_iff.mp ha)]
  rfl

theorem Confined.detach {u : Instance} (h : Confined b id x (.detach u :: rest)) (hb : b.Sound)
    (hs : x.Sound) :
    Confined b id (x.perform (.detach u)).1 ((x.perform (.detach u)).2 ++ rest) := by
  obtain ⟨w, hw, hu⟩ : ∃ w, Duty.detach u = .detach w ∧
      (b.registered? id = some w ∨ (x.isAttached w = false ∧ ∀ h, ¬ x.view.Awaits h w .waiting)) := by
    rcases h.harmless _ (List.mem_cons_self ..) with hd | hd | hd
    · cases hd
    · cases hd
    · exact hd
  obtain rfl := Duty.detach.inj hw
  have apart : ∀ v, b.registered? id ≠ some v → v = u →
      x.isAttached u = false ∧ ∀ h, ¬ x.view.Awaits h u .waiting := by
    rintro v hv rfl
    exact hu.resolve_left hv
  refine ⟨?_, ?_, ?_, fun v => ?_, fun v hv => ?_, fun v hv hh r => ?_, ?_, ?_, fun d hd => ?_⟩
  · rw [registry_detach]
    exact h.registry
  · rw [ident_detach]
    exact h.ident
  · rw [calls_perform]
    exact h.calls
  · rw [isAttaching_perform]
    exact h.attaching v
  · rw [attached_detach]
    split
    · next hvu => rw [← h.attached v hv, hvu, (apart v hv hvu).1]
    · exact h.attached v hv
  · rw [view_detach, hs.awaits_cutOff hh r fun hvu => (apart v hv hvu).2]
    exact h.awaits v hv hh r
  · obtain ⟨news, hj, hn⟩ := h.silent
    rcases hu with hreg | ⟨ha, _⟩
    · rcases journal_detach x u with hj' | ⟨y, hj'⟩
      · exact ⟨news, hj'.trans hj, hn⟩
      · refine ⟨news ++ y.farewell u, by rw [hj', hj, List.append_assoc], fun v hv => ?_⟩
        rw [tabEvents_append, hn v hv, tabEvents_farewell_of_ne y fun hvu => hv (by rw [hvu]; exact hreg)]
        rfl
    · exact ⟨news, (journal_detach_of_unattached ha).trans hj, hn⟩
  · rw [connection_detach]
    exact h.connection.imp_left fun ⟨hc, hm⟩ => ⟨hc, mem_append_of_cons hm Duty.noConfusion⟩
  · rcases List.mem_append.mp hd with hd | hd
    · -- the instance is attached, so it is the one of the id
      obtain ⟨k, rfl, _, ha, hk⟩ := duty_of_detach hd
      rcases hu with hreg | ⟨ha', _⟩
      · rw [h.ident, hb.own id u (mem_of_lookup hreg)] at hk
        exact Or.inr (Or.inl (congrArg Duty.terminate (Option.some.inj hk).symm))
      · rw [ha] at ha'
        cases ha'
    · exact (h.harmless d (List.mem_cons_of_mem _ hd)).perform hs _

theorem Confined.terminate {k : TabId} (h : Confined b id x (.terminate k :: rest)) :
    Confined b id (x.perform (.terminate k)).1 ((x.perform (.terminate k)).2 ++ rest) := by
  obtain rfl : k = id := by
    rcases h.harmless _ (List.mem_cons_self ..) with hd | hd | ⟨v, hd, _⟩
    · cases hd
    · exact Duty.terminate.inj hd
    · cases hd
  -- the tab is out of the registry already
  have hnone : x.registered? k = none := by
    show x.registry.lookup k = none
    rw [h.registry, lookup_filter_ne, if_pos rfl]
  have he : x.perform (.terminate k) = (x, [.closeIfIdle]) := by
    unfold State.perform
    dsimp only
    rw [hnone]
  have hharmless : ∀ d ∈ [Duty.closeIfIdle] ++ rest, Harmless b k x d := by
    intro d hd
    rcases List.mem_append.mp hd with hd | hd
    · exact Or.inl (List.mem_singleton.mp hd)
    · exact h.harmless d (List.mem_cons_of_mem _ hd)
  rw [he]
  exact { h with
    connection := h.connection.imp_left fun ⟨hc, _⟩ =>
      ⟨hc, List.mem_append_left _ (List.mem_singleton.mpr rfl)⟩
    harmless := hharmless }

theorem connection_close (x : State) : x.close.1.connection =
    if x.connection.connected then x.connection.close else x.connection := by
  unfold State.close
  split
  · split <;> rfl
  · rfl

/-- Only the registered instances are to be detached when a connection closes. -/
theorem mem_registry_of_close {d : Duty} (hd : d ∈ x.close.2) : ∃ r ∈ x.registry, d = .detach r.2 := by
  unfold State.close at hd
  split at hd
  · split at hd
    · obtain ⟨r, hr, rfl⟩ := List.mem_map.mp hd
      exact ⟨r, hr, rfl⟩
    · cases hd
  · cases hd

theorem Confined.close (h : Confined b id x (.closeIfIdle :: rest)) (hb : b.Sound) (hs : x.Sound)
    (idle : x.hasLive = false) (candid : ∀ v, b.Candid v) (tied : ∀ v, x.Tied v) :
    Confined b id x.close.1 (x.close.2 ++ rest) := by
  have hout : (b.strike id).hasLive = false := by rw [← h.hasLive hb, idle]
  refine ⟨?_, ?_, ?_, fun v => ?_, fun v hv => ?_, fun v hv hh r => ?_, ?_, Or.inr ?_, fun d hd => ?_⟩
  · rw [registry_close]
    exact h.registry
  · rw [← h.ident, view_close]
    split <;> rfl
  · rw [calls_close]
    exact h.calls
  · rw [isAttaching_close]
    exact h.attaching v
  · rw [isAttached_close]
    exact h.attached v hv
  · rw [awaits_close_iff]
    exact h.awaits v hv hh r
  · obtain ⟨news, hj, hn⟩ := h.silent
    rcases journal_close x with hj' | hj'
    · exact ⟨news, hj'.trans hj, hn⟩
    · refine ⟨news ++ [.connectionClosed], by rw [hj', hj, List.append_assoc], fun v hv => ?_⟩
      rw [tabEvents_append, hn v hv]
      rfl
  · rw [connection_close]
    unfold linkAfter
    rw [hout, Bool.not_false, Bool.and_true]
    rcases h.connection with ⟨hc, _⟩ | hc
    · rw [hc]
    · unfold linkAfter at hc
      rw [hout, Bool.not_false, Bool.and_true] at hc
      rw [hc]
      -- what is closed already does not close again
      split <;> rfl
  · rcases List.mem_append.mp hd with hd | hd
    · obtain ⟨r, hr, rfl⟩ := mem_registry_of_close hd
      have hl : x.isLive r.2 = false := by
        have hall := List.any_eq_false.mp idle r hr
        exact Bool.eq_false_iff.mpr hall
      have hcandid : x.Candid r.2 := candid_of_eq h.calls (h.attaching r.2) (candid r.2)
      refine Or.inr (Or.inr ⟨r.2, rfl, Or.inr ⟨?_, fun hh hw => ?_⟩⟩)
      · rw [isAttached_close]
        rw [isLive_eq, Bool.or_eq_false_iff] at hl
        exact hl.1
      · rw [awaits_close_iff] at hw
        exact unawaited_of_not_live hcandid (tied r.2) hl hh hw
    · have hh := (h.harmless d (List.mem_cons_of_mem _ hd)).perform hs .closeIfIdle
      rw [perform_closeIfIdle, if_neg (Bool.eq_false_iff.mp idle)] at hh
      exact hh

theorem Confined.closeIfIdle (h : Confined b id x (.closeIfIdle :: rest)) (hb : b.Sound) (hs : x.Sound)
    (candid : ∀ v, b.Candid v) (tied : ∀ v, x.Tied v) :
    Confined b id (x.perform .closeIfIdle).1 ((x.perform .closeIfIdle).2 ++ rest) := by
  rw [perform_closeIfIdle]
  split
  · next hl =>
    refine { h with
      connection := Or.inr ?_
      harmless := fun d hd => h.harmless d (List.mem_cons_of_mem _ hd) }
    rcases h.connection with ⟨hc, _⟩ | hc
    · unfold linkAfter
      rw [hc, ← h.hasLive hb, hl, Bool.not_true, Bool.and_false, if_neg Bool.false_ne_true]
    · exact hc
  · next hl => exact h.close hb hs (Bool.eq_false_iff.mpr hl) candid tied

theorem Confined.unwind (h : Confined b id x duties) (hb : b.Sound) (hs : x.Sound)
    (candid : ∀ v, b.Candid v) (tied : ∀ v, x.Tied v) : Confined b id (x.unwind duties) [] := by
  refine (unwind_induction
    (P := fun x ds => x.Sound ∧ (∀ v, x.Tied v) ∧ Confined b id x ds) ?_ x duties ⟨hs, tied, h⟩).2.2
  rintro y d ds ⟨hs, tied, h⟩
  refine ⟨hs.perform d, fun v => hs.tied_perform d (tied v), ?_⟩
  cases d with
  | detach u => exact h.detach hb hs
  | terminate k => exact h.terminate
  | closeIfIdle => exact h.closeIfIdle hb hs candid tied

/-- The end of a tab concerns this tab and the connection only. -/
theorem Sound.confined_terminated (hs : b.Sound) (candid : ∀ v, b.Candid v) (tied : ∀ v, b.Tied v)
    (id : TabId) : Confined b id (b.terminated id) [] := by
  have hharmless : ∀ d ∈ (b.perform (.terminate id)).2,
      Harmless b id (b.perform (.terminate id)).1 d := by
    intro d hd
    rcases duty_of_terminate hd with rfl | ⟨u, rfl, hu⟩
    · exact Or.inl rfl
    · exact Or.inr (Or.inr ⟨u, rfl, Or.inl hu⟩)
  have hstart : Confined b id (b.perform (.terminate id)).1 (b.perform (.terminate id)).2 := by
    rw [registry_terminate] at hharmless ⊢
    exact {
      registry := rfl
      ident := rfl
      calls := rfl
      attaching := fun _ => rfl
      attached := fun _ _ => rfl
      awaits := fun _ _ _ _ => Iff.rfl
      silent := ⟨[], (List.append_nil _).symm, fun _ _ => rfl⟩
      connection := Or.inl ⟨rfl, closeIfIdle_mem_terminate b id⟩
      harmless := hharmless }
  unfold terminated
  rw [State.unwind, List.append_nil]
  exact hstart.unwind hs (hs.perform _) candid fun v => hs.tied_perform _ (tied v)

/-- Where no instance is registered under an id and the connection is needed or gone, nothing is to be
done about the tab of the id. -/
theorem terminated_of_unregistered (hn : b.registered? id = none)
    (hl : b.hasLive = true ∨ b.connection.connected = false) : b.terminated id = b := by
  have hfirst : b.perform (.terminate id) = (b, [.closeIfIdle]) := by
    unfold State.perform
    dsimp only
    rw [hn]
  have hsecond : b.perform .closeIfIdle = (b, []) := by
    rw [perform_closeIfIdle]
    rcases hl with hl | hdown
    · rw [if_pos hl]
    · rw [close_of_disconnected hdown, ite_self]
  unfold terminated
  rw [unwind, hfirst, List.append_nil, unwind, hsecond, List.append_nil, unwind]

theorem strike_of_unregistered (hn : b.registered? id = none) : b.strike id = b := by
  unfold strike
  rw [filter_ne_of_lookup_none hn]

/-- The end of a tab goes unnoticed only where there is nothing to be done about it. -/
theorem terminated_eq_self_iff (h : Confined b id (b.terminated id) []) :
    b.terminated id = b ↔
      b.registered? id = none ∧ (b.hasLive = true ∨ b.connection.connected = false) := by
  refine ⟨fun he => ?_, fun ⟨hn, hl⟩ => terminated_of_unregistered hn hl⟩
  have hn : b.registered? id = none := by
    have hr := h.registry
    rw [he] at hr
    show b.registry.lookup id = none
    rw [hr, lookup_filter_ne, if_pos rfl]
  refine ⟨hn, ?_⟩
  rcases h.connection with ⟨_, hm⟩ | hc
  · cases hm
  · unfold linkAfter at hc
    rw [he, strike_of_unregistered hn] at hc
    cases hl : b.hasLive with
    | true => exact Or.inl rfl
    | false =>
      cases hcon : b.connection.connected with
      | false => exact Or.inr rfl
      | true =>
        rw [hl, hcon, Bool.not_false, Bool.and_true, if_pos rfl] at hc
        have hdown : b.connection.connected = false := by
          rw [hc]
          rfl
        rw [hcon] at hdown
        cases hdown

theorem tabTerminated_eq {tab : Tab} (known : b.tab? t = some tab) :
    b.act (.tabTerminated t) = if b.alive then b.terminated tab.id else b := by
  simp only [act, tabTerminated, known]

/-- In every history the report of an instance that is not the one registered under its id is taken for
a report of the one that is. It changes nothing if the session is gone, or if none is registered and the
connection is needed by a live tab or is not there. Otherwise the registry loses the tab of the id, and
the connection closes exactly if no live tab is left; every instance but the registered one keeps its
attachment, the mark of its attach and its exchange, and hears nothing. -/
theorem stale_report_ends_registered_tab (config : Config) (restartable : Bool)
    (rules : List (String × Json)) (actions : List Action) (t : Instance) (tab : Tab) :
    let s := (initial config restartable rules).run actions
    let s' := s.act (.tabTerminated t)
    s.tab? t = some tab → s.registered? tab.id ≠ some t →
      (s' = s ↔ s.alive = false ∨ (s.registered? tab.id = none ∧
        (s.hasLive = true ∨ s.connection.connected = false))) ∧
      (∀ u, s.registered? tab.id = some u → s' = s.act (.tabTerminated u)) ∧
      (s.alive = true → s'.registry = s.registry.filter (·.1 != tab.id) ∧
        s'.connection = if s.connection.connected && !(s.strike tab.id).hasLive
          then s.connection.close else s.connection) ∧
      ∃ news, s'.journal = s.journal ++ news ∧ ∀ v, s.registered? tab.id ≠ some v →
        s'.isAttached v = s.isAttached v ∧ s'.isAttaching v = s.isAttaching v ∧
          (∀ h r, s'.view.Awaits h v r ↔ s.view.Awaits h v r) ∧ tabEvents v news = [] := by
  intro s s' known stale
  have h₀ := sound_initial config restartable rules
  have hs : s.Sound := h₀.run actions
  have candid : ∀ v, s.Candid v := fun v =>
    h₀.candid_run actions (candid_initial config restartable rules v)
  have tied : ∀ v, s.Tied v := fun v => h₀.tied_run actions (tied_initial config restartable rules v)
  have hown : ∀ u, s.registered? tab.id = some u → s' = s.act (.tabTerminated u) := by
    intro u hu
    have hid : (s.tab? u).map (·.id) = some tab.id := hs.own tab.id u (mem_of_lookup hu)
    obtain ⟨tab', hu', hid⟩ := Option.map_eq_some_iff.mp hid
    rw [tabTerminated_eq hu', hid]
    exact tabTerminated_eq known
  have hact : s' = if s.alive then s.terminated tab.id else s := tabTerminated_eq known
  cases ha : s.alive with
  | false =>
    rw [ha, if_neg Bool.false_ne_true] at hact
    rw [hact]
    rw [hact] at hown
    exact ⟨by simp, hown, fun h => (by cases h), [], (List.append_nil _).symm,
      fun v _ => ⟨rfl, rfl, fun _ _ => Iff.rfl, rfl⟩⟩
  | true =>
    rw [ha, if_pos rfl] at hact
    have h := hs.confined_terminated candid tied tab.id
    rw [← hact] at h
    obtain ⟨news, hj, hn⟩ := h.silent
    refine ⟨?_, hown, fun _ => ⟨h.registry, ?_⟩, news, hj, fun v hv =>
      ⟨h.attached v hv, h.attaching v, h.awaits v hv, hn v hv⟩⟩
    · rw [hact] at h ⊢
      rw [terminated_eq_self_iff h]
      simp
    · exact h.connection.resolve_left fun ⟨_, hm⟩ => by cases hm

/-- A history in which two tabs are discovered twice and the new instance of one is attached. -/
def rediscovering : List Action :=
  [.start 0 .connect, .resume 0, .receive, .resume 0, .start 1 .tabs, .resume 1, .receive, .resume 1,
    .start 2 .tabs, .resume 2, .receive, .resume 2, .start 3 (.attach 2 { name := "l" }), .resume 3,
    .receive, .resume 3]

/-- The new instance of the other tab comes to be attached too. An old handle of the first tab then
ends the attachment of the first and leaves that of the other, which keeps the connection. -/
theorem old_handle_spares_other_tab :
    let s := (initial {} false obliging).run
      (rediscovering ++ [.start 4 (.attach 3 { name := "m" }), .resume 4, .receive, .resume 4])
    let s' := s.act (.tabTerminated 0)
    ((s.tab? 0).map (·.id) = some 7 ∧ s.registered? 7 = some 2 ∧ s.isAttached 2 = true ∧
        s.isAttached 3 = true) ∧
      s'.isAttached 2 = false ∧ s'.isAttached 3 = true ∧ s'.connection = s.connection := by
  intro s s'
  have known : (s.tab? 0).map (·.id) = some 7 := by decide +kernel
  have registered : s.registered? 7 = some 2 := by decide +kernel
  have first : s.isAttached 2 = true ∧ s'.isAttached 2 = false := by decide +kernel
  have second : s.registered? 8 = some 3 ∧ s.isAttached 3 = true := by decide +kernel
  have needed : (s.alive && (s.strike 7).hasLive) = true := by decide +kernel
  obtain ⟨alive, live⟩ := Bool.and_eq_true_iff.mp needed
  obtain ⟨tab, ht, hid⟩ := Option.map_eq_some_iff.mp known
  obtain ⟨_, _, hends, _, _, hothers⟩ := stale_report_ends_registered_tab {} false obliging _ 0 tab ht
    (by rw [hid]; exact fun h => absurd (registered.symm.trans h) (by decide))
  rw [hid] at hends hothers
  refine ⟨⟨known, registered, first.1, second.2⟩, first.2, ?_, ?_⟩
  · have hne : s.registered? 7 ≠ some 3 := fun h => absurd (registered.symm.trans h) (by decide)
    exact (hothers 3 hne).1.trans second.2
  · have hc := (hends alive).2
    rw [live, Bool.not_true, Bool.and_false, if_neg Bool.false_ne_true] at hc
    exact hc

/-- With no other tab attached, the report of an old handle closes the connection besides. -/
theorem old_handle_ends_new_instance :
    let s := (initial {} false obliging).run rediscovering
    let s' := s.act (.tabTerminated 0)
    ((s.tab? 0).map (·.id) = some 7 ∧ s.registered? 7 = some 2) ∧ s' ≠ s ∧
      (s.isAttached 2 = true ∧ s'.isAttached 2 = false) ∧ s'.registered? 7 = none ∧
      s.connection.connected = true ∧ s'.connection.connected = false := by
  intro s s'
  have stale : (s.tab? 0).map (·.id) = some 7 ∧ s.registered? 7 = some 2 := by decide +kernel
  have detached : s.isAttached 2 = true ∧ s'.isAttached 2 = false := by decide +kernel
  have gone : s'.registered? 7 = none := by decide +kernel
  have closed : s.connection.connected = true ∧ s'.connection.connected = false := by decide +kernel
  refine ⟨stale, fun he => ?_, detached, gone, closed⟩
  rw [he] at detached
  exact absurd (detached.1.symm.trans detached.2) (by decide)

end State
end RemoteDebug.Engine
