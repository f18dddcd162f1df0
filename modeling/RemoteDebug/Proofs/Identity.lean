import RemoteDebug.Proofs.Hearing
import RemoteDebug.Proofs.Idleness
import RemoteDebug.Proofs.Schedule

/-! A live tab keeps its place.

A registered instance that is live leaves the registry in one way only: the session is told that the
tab of its id is finished. A discovery and an attach by another instance of the id both spare it, so a
list of tabs shows this very instance for the id, however often the server names it. -/
namespace RemoteDebug.Engine
open Protocol Wire

namespace State

variable {s s' x : State} {c : Call} {t u : Instance} {id : TabId}

/-! ### What an end comes to -/

/-- The duties that are performed one after the other. -/
def performed (s : State) (duties : List Duty) : List Duty :=
  match duties with
  | [] => []
  | d :: rest => d :: performed (s.perform d).1 ((s.perform d).2 ++ rest)
termination_by weigh duties + s.load
decreasing_by
  have := s.load_perform d
  rw [weigh, weigh_append]
  omega

theorem unwind_eq_foldl (s : State) (duties : List Duty) :
    s.unwind duties = (s.performed duties).foldl (fun x d => (x.perform d).1) s := by
  induction s, duties using unwind.induct with
  | case1 s =>
    rw [unwind, performed]
    rfl
  | case2 s d rest ih =>
    rw [unwind, performed, ih]
    rfl

/-- All that is performed when something ends. -/
def consequences (s : State) : Trigger → List Duty
  | .close => s.close.1.performed s.close.2
  | .detached t => s.performed [.detach t]
  | .terminated id => s.performed [.terminate id]

/-- In the course of an action the session is told that the tab of an id is finished. -/
def Terminates (s : State) (a : Action) (id : TabId) : Prop :=
  ∃ o ∈ s.occasion? a, .terminate id ∈ o.before.consequences o.trigger

instance (s : State) (a : Action) (id : TabId) : Decidable (s.Terminates a id) :=
  inferInstanceAs (Decidable (∃ o ∈ s.occasion? a, .terminate id ∈ o.before.consequences o.trigger))

theorem mem_registry_perform (d : Duty) (kept : (id, t) ∈ x.registry) :
    (id, t) ∈ (x.perform d).1.registry ∨ d = .terminate id := by
  cases d with
  | detach u =>
    rw [registry_detach]
    exact Or.inl kept
  | terminate k =>
    rw [registry_terminate]
    by_cases hk : id = k
    · exact Or.inr (by rw [hk])
    · exact Or.inl (List.mem_filter.mpr ⟨kept, bne_iff_ne.mpr hk⟩)
  | closeIfIdle =>
    rw [perform_closeIfIdle]
    split
    · exact Or.inl kept
    · exact Or.inl ((registry_close x).symm ▸ kept)

theorem mem_registry_unwind (s : State) (duties : List Duty) (kept : (id, t) ∈ s.registry) :
    (id, t) ∈ (s.unwind duties).registry ∨ .terminate id ∈ s.performed duties := by
  induction s, duties using unwind.induct with
  | case1 s =>
    rw [unwind]
    exact Or.inl kept
  | case2 s d rest ih =>
    rw [unwind, performed]
    rcases mem_registry_perform d kept with hk | rfl
    · exact (ih hk).imp_right (List.mem_cons_of_mem d)
    · exact Or.inr List.mem_cons_self

/-- Whatever ends, an instance stays registered unless its id is named. -/
theorem mem_registry_fire (k : Trigger) (kept : (id, t) ∈ x.registry) :
    (id, t) ∈ (x.fire k).registry ∨ .terminate id ∈ x.consequences k := by
  cases k with
  | close => exact mem_registry_unwind _ _ ((registry_close x).symm ▸ kept)
  | detached u => exact mem_registry_unwind x _ kept
  | terminated k => exact mem_registry_unwind x _ kept

/-! ### The place of a live tab -/

theorem Sound.mem_registry (hs : s.Sound) (hid : s.view.ident t = some id) (he : s.Enlisted t) :
    (id, t) ∈ s.registry :=
  mem_of_lookup ((hs.enlisted_iff hid).mp he)

/-- The call that asks for a tab goes on: the tab keeps its place, or it is not live any more. -/
theorem Sound.enlisted_poll (hs : s.Sound) {k : Ticket} {d : Nat} (hc : c ∈ s.calls)
    (hp : c.point = .awaiting k d) (quiet : s.ousts? c k = none) (he : s.Enlisted t) :
    (s.poll c k d).Enlisted t ∨ (s.poll c k d).isLive t = false := by
  rcases hs.poll_cases hc hp quiet with hsame | ⟨u, _, _, _, _, hgranted⟩ | hbeside
  · exact Or.inl (hsame.symm ▸ he)
  · refine Or.inl ?_
    rw [hgranted]
    show (s.quit c k).Enlisted t
    rwa [enlisted_quit hs hc]
  · have he' : (s.quit c k).Enlisted t := (enlisted_quit hs hc k).symm ▸ he
    cases hl : (s.quit c k).isLive t with
    | true => exact Or.inl ((hbeside t).enlisted hl he')
    | false => exact Or.inr ((hbeside t).live.trans hl)

/-- Without an end, a live instance keeps its place as long as it is live. -/
theorem Sound.enlisted_act (hs : s.Sound) (candid : s.Candid t) {a : Action}
    (quiet : s.occasion? a = none) (hl : s.isLive t = true) (he : s.Enlisted t) :
    (s.act a).Enlisted t ∨ (s.act a).isLive t = false := by
  rw [isLive_eq, Bool.or_eq_true] at hl
  rcases hl with attached | attaching
  · exact Or.inl ((hs.endFree_act quiet).keeps_place hs attached he).2
  -- an attach is under way: only its own call can take the tab out of its liveness
  obtain ⟨c, hc, pursues⟩ := candid.mp attaching
  obtain ⟨k, d, hp⟩ := point_of_waits pursues.waits
  by_cases resumed : a = .resume c.id
  · subst resumed
    have hact : s.act (.resume c.id) = s.poll c k d := by
      simp only [State.act, hs.call?_eq hc, resume, hp]
    have quiet' : s.ousting? c = none := by
      simpa only [occasion?, hs.call?_eq hc, Option.bind_some] using quiet
    rw [hact]
    exact hs.enlisted_poll hc hp (ousts_of_ousting quiet' k d hp) he
  · by_cases cancelled : a = .cancel c.id
    · subst cancelled
      have hact : s.act (.cancel c.id) = s.quit c k := by
        simp only [State.act, State.cancel, hs.call?_eq hc, hp]
      rw [hact, enlisted_quit hs hc]
      exact Or.inl he
    · exact Or.inl ((hs.beside_act_of_pursues quiet hc pursues resumed cancelled).enlisted
        (by rw [isLive_eq, attaching, Bool.or_true]) he)

/-- A registered instance that is live and stays so keeps its place, unless the session is told that the
tab of its id is finished. -/
theorem Sound.registered_act (hs : s.Sound) (candid : s.Candid t) {a : Action}
    (hr : s.registered? id = some t) (hl : s.isLive t = true) (live : (s.act a).isLive t = true)
    (spared : ¬ s.Terminates a id) : (s.act a).registered? id = some t := by
  have hid : s.view.ident t = some id := View.Sound.own hs id t (mem_of_lookup hr)
  have he : s.Enlisted t := (hs.enlisted_iff hid).mpr hr
  refine ((hs.act a).enlisted_iff (hs.ident_act a hid)).mp ?_
  cases ho : s.occasion? a with
  | none =>
    rcases hs.enlisted_act candid ho hl he with hkept | hgone
    · exact hkept
    · rw [hgone] at live
      cases live
  | some o =>
    have hso : o.before.Sound := (replyFree_before ho).sound hs
    have hkept : o.before.Enlisted t := (hs.beside_before ho).enlisted hl he
    have hid' : o.before.view.ident t = some id := by
      obtain ⟨_, _, _, hv⟩ := hs.view_before ho
      rw [hv]
      exact hid
    rw [act_of_occasion ho]
    rcases mem_registry_fire o.trigger (hso.mem_registry hid' hkept) with hm | hm
    · exact ⟨id, hm⟩
    · exact absurd ⟨o, ho, hm⟩ spared

/-- The instance stays live, and the session is not told that the tab of the id is finished. -/
def Retains (id : TabId) (t : Instance) (s : State) (a : Action) : Prop :=
  (s.act a).isLive t = true ∧ ¬ s.Terminates a id

instance (id : TabId) (t : Instance) (s : State) (a : Action) : Decidable (Retains id t s a) :=
  inferInstanceAs (Decidable (_ ∧ _))

theorem Sound.registered_run (hs : s.Sound) (candid : s.Candid t) (hr : s.registered? id = some t)
    (hl : s.isLive t = true) {actions : List Action} (lasts : Lasts (Retains id t) s actions) :
    (s.run actions).registered? id = some t ∧ (s.run actions).isLive t = true := by
  induction actions generalizing s with
  | nil => exact ⟨hr, hl⟩
  | cons a rest ih =>
    obtain ⟨⟨live, spared⟩, later⟩ := lasts
    exact ih (hs.act a) (hs.candid_act a candid) (hs.registered_act candid hr hl live spared) live later

/-! ### What a discovery shows -/

theorem Sound.adopt (hs : s.Sound) (e : TabEntry) : (s.adopt e).1.Sound := by
  rcases adopt_cases s e with ⟨u, _, _, h⟩ | ⟨vacant, h⟩ <;> rw [h]
  · exact hs
  · exact (Change.created e vacant).sound hs

theorem adoptAll_cons (s : State) (e : TabEntry) (rest : List TabEntry) :
    s.adoptAll (e :: rest) =
      (((s.adopt e).1.adoptAll rest).1, (s.adopt e).2 :: ((s.adopt e).1.adoptAll rest).2) := rfl

theorem tab?_adopt (e : TabEntry) (known : (s.tab? t).isSome = true) :
    (s.adopt e).1.tab? t = s.tab? t := by
  rcases adopt_cases s e with ⟨u, _, _, h⟩ | ⟨_, h⟩ <;> rw [h]
  rw [tab?_create, if_neg]
  rintro rfl
  rw [tab?_length] at known
  cases known

theorem tab?_adoptAll (entries : List TabEntry) (known : (s.tab? t).isSome = true) :
    (s.adoptAll entries).1.tab? t = s.tab? t := by
  induction entries generalizing s with
  | nil => rfl
  | cons e rest ih =>
    have hfirst := tab?_adopt e known
    rw [adoptAll_cons, ih (hfirst ▸ known), hfirst]

/-- The instance that shows a listed tab has the id of the tab. -/
theorem Sound.ident_adopt (hs : s.Sound) (e : TabEntry) :
    ∃ tab, (s.adopt e).1.tab? (s.adopt e).2 = some tab ∧ tab.id = e.id := by
  rcases adopt_cases s e with ⟨u, hr, _, h⟩ | ⟨_, h⟩ <;> rw [h]
  · exact Option.map_eq_some_iff.mp (View.Sound.own hs e.id u (mem_of_lookup hr))
  · refine ⟨{ id := e.id, url := e.url }, ?_, rfl⟩
    show (s.create e).1.tab? s.tabs.length = _
    rw [tab?_create, if_pos rfl]

theorem Sound.listed_cons (hs : s.Sound) (e : TabEntry) (rest : List TabEntry) :
    ∃ l : Listed, (s.adopt e).1.listed? (s.adopt e).2 = some l ∧ l.id = e.id ∧ l.tab = (s.adopt e).2 ∧
      (s.adoptAll (e :: rest)).2.filterMap (s.adoptAll (e :: rest)).1.listed? =
        l :: ((s.adopt e).1.adoptAll rest).2.filterMap ((s.adopt e).1.adoptAll rest).1.listed? := by
  obtain ⟨tab, htab, hid⟩ := hs.ident_adopt e
  have hlast : ((s.adopt e).1.adoptAll rest).1.tab? (s.adopt e).2 = some tab := by
    rw [tab?_adoptAll rest (by rw [htab]; rfl), htab]
  refine ⟨⟨tab.id, tab.url, tab.attached, (s.adopt e).2⟩, ?_, hid, rfl, ?_⟩
  · unfold listed?
    rw [htab]
    rfl
  rw [adoptAll_cons]
  refine List.filterMap_cons_some ?_
  unfold listed?
  rw [hlast]
  rfl

/-- A listing has an item for each listed tab, in the order of the list. -/
theorem Sound.ids_adoptAll (hs : s.Sound) (entries : List TabEntry) :
    ((s.adoptAll entries).2.filterMap (s.adoptAll entries).1.listed?).map (·.id) =
      entries.map (·.id) := by
  induction entries generalizing s with
  | nil => rfl
  | cons e rest ih =>
    obtain ⟨l, _, hid, _, hl⟩ := hs.listed_cons e rest
    rw [hl, List.map_cons, List.map_cons, hid, ih (hs.adopt e)]

/-- A live registered instance stays the one of its id when a tab is listed, and no context is made
for the id. -/
theorem adopt_of_live (hr : s.registered? id = some t) (hl : s.isLive t = true) (e : TabEntry) :
    (e.id = id → (s.adopt e).2 = t) ∧ (s.adopt e).1.registered? id = some t ∧
      (s.adopt e).1.isLive t = true ∧ ∃ es, (s.adopt e).1.journal = s.journal ++ es ∧
        ∀ u url, .event u (.created id url) ∉ es := by
  rcases adopt_cases s e with ⟨u, hu, _, h⟩ | ⟨vacant, h⟩ <;> rw [h]
  · refine ⟨fun hid => ?_, hr, hl, [], (List.append_nil _).symm, fun _ _ => List.not_mem_nil⟩
    rw [hid, hr] at hu
    exact (Option.some.inj hu).symm
  · have hne : e.id ≠ id := by
      rintro rfl
      rw [vacant t hr] at hl
      cases hl
    have hnew : t ≠ s.tabs.length := by
      rintro rfl
      unfold State.isLive at hl
      rw [tab?_length] at hl
      cases hl
    refine ⟨fun hid => absurd hid hne, ?_, ?_, [.event s.tabs.length (.created e.id e.url)], rfl, ?_⟩
    · show (assign e.id s.tabs.length s.registry).lookup id = some t
      rw [lookup_assign, if_neg (Ne.symm hne)]
      exact hr
    · unfold State.isLive
      rw [tab?_create, if_neg hnew]
      exact hl
    · intro u url hm
      cases List.mem_singleton.mp hm
      exact hne rfl

theorem Sound.adoptAll_of_live (hs : s.Sound) (hr : s.registered? id = some t) (hl : s.isLive t = true)
    (entries : List TabEntry) :
    (∀ l ∈ (s.adoptAll entries).2.filterMap (s.adoptAll entries).1.listed?, l.id = id → l.tab = t) ∧
      ∃ es, (s.adoptAll entries).1.journal = s.journal ++ es ∧
        ∀ u url, .event u (.created id url) ∉ es := by
  induction entries generalizing s with
  | nil => exact ⟨fun l h => absurd h List.not_mem_nil, [], (List.append_nil _).symm,
      fun _ _ => List.not_mem_nil⟩
  | cons e rest ih =>
    obtain ⟨first, hr', hl', es, hj, hes⟩ := adopt_of_live hr hl e
    obtain ⟨later, es', hj', hes'⟩ := ih (hs.adopt e) hr' hl'
    obtain ⟨i, _, hid, htab, hi⟩ := hs.listed_cons e rest
    refine ⟨fun l hm hlid => ?_, es ++ es', ?_, fun u url hm => ?_⟩
    · rw [hi] at hm
      rcases List.mem_cons.mp hm with rfl | hm
      · rw [htab]
        exact first (hid.symm.trans hlid)
      · exact later l hm hlid
    · show ((s.adopt e).1.adoptAll rest).1.journal = _
      rw [hj', hj, List.append_assoc]
    · exact (List.mem_append.mp hm).elim (hes u url) (hes' u url)

/-- In every history, a registered instance that is live stays registered under its id until it is not
live any more or the session is told that the tab of the id is finished. Every discovery that
has heard a list of tabs by then ends, when it goes on, with a listing of the list, in which each item
with the id is this instance, and no context is made for the id. -/
theorem live_tab_keeps_place (config : Config) (restartable : Bool) (rules : List (String × Json))
    (before after : List Action) (id : TabId) (t : Instance) :
    let s := (initial config restartable rules).run before
    let s' := s.run after
    s.registered? id = some t → s.isLive t = true → Lasts (Retains id t) s after →
      s'.registered? id = some t ∧
        ∀ c ∈ s'.calls, c.request = .tabs → ∀ response entries, s'.Informed c response →
          listing (.ok response) = .ok entries →
            ∃ es ls, (s'.act (.resume c.id)).journal =
                s'.journal ++ es ++ [.finished c.id .tabs (.tabs (.ok ls))] ∧
              ls.map (·.id) = entries.map (·.id) ∧ (∀ l ∈ ls, l.id = id → l.tab = t) ∧
                ∀ u url, .event u (.created id url) ∉ es := by
  intro s s' hr hl lasts
  have h₀ : (initial config restartable rules).Sound := sound_initial config restartable rules
  have hs : s.Sound := h₀.run before
  have hs' : s'.Sound := hs.run after
  have candid : s.Candid t := h₀.candid_run before (candid_initial config restartable rules t)
  obtain ⟨hr', hl'⟩ := hs.registered_run candid hr hl lasts
  refine ⟨hr', fun c hc about response entries informed listed => ?_⟩
  obtain ⟨k, d, hp, hact⟩ := hs'.act_of_informed hc (by rw [about]; rfl) informed
  simp only [State.serviceEnds, about, listed] at hact
  -- without the call, the instance has its place as before
  have hbeside : Beside t s' (s'.quit c k) :=
    hs'.beside_quit hc hp (by rw [about]; exact fun h => by cases h)
  have hquit : (s'.quit c k).Sound := hs'.quit (waits_of_point hc hp)
  have hregistered : (s'.quit c k).registered? id = some t := by
    unfold registered?
    rw [registry_quit hs' hc]
    exact hr'
  obtain ⟨same, es, hj, hnew⟩ := hquit.adoptAll_of_live hregistered (hbeside.live.trans hl') entries
  refine ⟨es, _, ?_, hquit.ids_adoptAll entries, same, hnew⟩
  rw [hact]
  show ((s'.quit c k).adoptAll entries).1.journal ++ [.finished c.id c.request _] = _
  rw [hj, journal_quit, about]

/-- While the attach of the first tab is under way, a list comes in that names the tab twice. -/
def relisting : List Action :=
  [.answerWith "list_tabs" (.ofFields
      [("command", .str "list_tabs"), ("result", .ofNat 0),
        ("data", .arr [.arr [.ofNat 7, .str "c"], .arr [.ofNat 7, .str "d"]])]),
    .start 3 .tabs, .resume 3, .receive]

def relistingCall : Call := ⟨3, .tabs, .awaiting 3 3000⟩

/-- The discovery shows the first tab twice and makes nothing. -/
theorem attaching_tab_is_listed_twice :
    let s := (initial {} false obliging).run accepting
    let s' := s.run relisting
    s.registered? 7 = some 0 ∧ s.isLive 0 = true ∧ Lasts (Retains 7 0) s relisting ∧
      s'.registered? 7 = some 0 ∧
      ∃ es ls, (s'.act (.resume 3)).journal = s'.journal ++ es ++ [.finished 3 .tabs (.tabs (.ok ls))] ∧
        ls.map (·.id) = [7, 7] ∧ (∀ l ∈ ls, l.id = 7 → l.tab = 0) ∧
          ∀ u url, .event u (.created 7 url) ∉ es := by
  intro s s'
  have registered : s.registered? 7 = some 0 := by decide +kernel
  have live : s.isLive 0 = true := by decide +kernel
  have lasts : Lasts (Retains 7 0) s relisting := by decide +kernel
  obtain ⟨kept, listings⟩ :=
    live_tab_keeps_place {} false obliging accepting relisting 7 0 registered live lasts
  refine ⟨registered, live, lasts, kept, ?_⟩
  exact listings relistingCall (by decide +kernel) rfl _ [⟨7, "c"⟩, ⟨7, "d"⟩] ⟨3, 3000, rfl, rfl⟩ rfl

end State
end RemoteDebug.Engine
