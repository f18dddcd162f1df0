import RemoteDebug.Proofs.Attachment
import RemoteDebug.Proofs.Pursuit
import RemoteDebug.Proofs.Snapshot

/-! When a connection stays that no tab needs.

Whatever ends an attachment looks whether a live tab is left, and closes the connection if not. Only the
end of an attach does not look: the mark of its tab goes away with the call. So a connection that was
needed once stays without a live tab exactly since an attach ended that had no live tab beside it. -/
namespace RemoteDebug.Engine
open Protocol Wire

namespace State

variable {s s' x : State} {c : Call} {t : Instance} {rest : List Duty}

theorem hasLive_iff : s.hasLive = true ↔ ∃ t, s.Enlisted t ∧ s.isLive t = true := by
  unfold hasLive Enlisted
  rw [List.any_eq_true]
  exact ⟨fun ⟨r, hr, hl⟩ => ⟨r.2, ⟨r.1, hr⟩, hl⟩, fun ⟨t, ⟨id, hm⟩, hl⟩ => ⟨(id, t), hm, hl⟩⟩

theorem hasLive_congr (registry : s'.registry = s.registry) (live : ∀ t, s'.isLive t = s.isLive t) :
    s'.hasLive = s.hasLive := by
  unfold hasLive
  rw [registry]
  simp only [live]

/-! ### Ends look after the connection -/

/-- A live tab is left, or the connection is gone, or what is left to do looks after it. -/
def Minded (x : State) (duties : List Duty) : Prop :=
  x.hasLive = true ∨ x.connection.connected = false ∨ .closeIfIdle ∈ duties ∨ ∃ id, .terminate id ∈ duties

theorem hasLive_detach_of_unattached {u : Instance} (ha : x.isAttached u = false) :
    (x.perform (.detach u)).1.hasLive = x.hasLive := by
  refine hasLive_congr (registry_detach x u) fun t => ?_
  rw [isLive_eq, isLive_eq, isAttaching_perform, attached_detach]
  split
  · next h => rw [h, ha]
  · rfl

theorem Minded.perform {d : Duty} (h : Minded x (d :: rest)) (alive : x.alive = true) :
    Minded (x.perform d).1 ((x.perform d).2 ++ rest) := by
  cases d with
  | detach u =>
    cases ha : x.isAttached u with
    | true =>
      obtain ⟨tab, _, hid⟩ := ident_of_attached ha
      refine Or.inr (Or.inr (Or.inr ⟨tab.id, List.mem_append_left _ ?_⟩))
      rw [duties_detach alive ha hid]
      exact List.mem_singleton.mpr rfl
    | false =>
      unfold Minded
      rw [hasLive_detach_of_unattached ha, connection_detach, duties_detach_of_unattached ha,
        List.nil_append]
      refine h.imp_right (Or.imp_right (Or.imp ?_ ?_))
      · exact fun hm => mem_of_ne_cons hm Duty.noConfusion
      · exact fun ⟨id, hm⟩ => ⟨id, mem_of_ne_cons hm Duty.noConfusion⟩
  | terminate id =>
    exact Or.inr (Or.inr (Or.inl (List.mem_append_left _ (closeIfIdle_mem_terminate x id))))
  | closeIfIdle =>
    rw [perform_closeIfIdle]
    split
    · next hl => exact Or.inl hl
    · exact Or.inr (Or.inl (disconnected_close x))

theorem Minded.unwind {duties : List Duty} (h : Minded x duties) (browser : x.browser = true) :
    (x.unwind duties).hasLive = true ∨ (x.unwind duties).connection.connected = false := by
  have hend := unwind_induction (P := fun y ds => y.browser = true ∧ Minded y ds) ?_ x duties ⟨browser, h⟩
  · rcases hend.2 with hl | hd | hm | ⟨_, hm⟩
    · exact Or.inl hl
    · exact Or.inr hd
    · cases hm
    · cases hm
  · rintro y d ds ⟨hb, hy⟩
    refine ⟨(browser_perform y d).trans hb, hy.perform ?_⟩
    unfold State.alive
    rw [hb]
    rfl

/-- Whatever ends where a live tab is registered, one is left, or the connection is gone. -/
theorem live_or_gone_fire (k : Trigger) (browser : x.browser = true) (live : x.hasLive = true) :
    (x.fire k).hasLive = true ∨ (x.fire k).connection.connected = false := by
  cases k with
  | close =>
    refine Minded.unwind (Or.inr (Or.inl (disconnected_close x))) ?_
    unfold State.close
    split
    · split <;> exact browser
    · exact browser
  | detached u => exact Minded.unwind (Or.inl live) browser
  | terminated id => exact Minded.unwind (Or.inl live) browser

/-! ### What does not end anything -/

theorem EndFreeMove.keeps_place (h : EndFreeMove s s') (hs : s.Sound) (ha : s.isAttached t = true)
    (he : s.Enlisted t) :
    s'.isAttached t = true ∧ s'.Enlisted t := by
  have answered : ∀ {d command}, Answer s d command s' → s'.isAttached t = true ∧ s'.Enlisted t := by
    intro d command hd
    unfold Enlisted
    rw [hd.attached, hd.registry]
    exact ⟨ha, he⟩
  cases h with
  | bypassFree ho =>
    cases ho with
    | replyFree hu => exact ⟨hu.keeps_attached hs ha, hu.enlisted hs ha he⟩
    | answer hd routed => exact answered hd
  | handed hd => exact answered hd
  | dropped => exact ⟨ha, he⟩

theorem EndFreeMoves.keeps_place (h : EndFreeMoves s s') (hs : s.Sound) (ha : s.isAttached t = true)
    (he : s.Enlisted t) :
    s'.isAttached t = true ∧ s'.Enlisted t := by
  induction h with
  | refl => exact ⟨ha, he⟩
  | tail steps step ih => exact step.keeps_place (EndFreeMoves.sound steps hs) ih.1 ih.2

theorem not_mem_quit (s : State) (c : Call) (k : Ticket) : c ∉ (s.quit c k).calls := by
  rw [calls_quit]
  intro hx
  exact bne_iff_ne.mp (List.mem_filter.mp hx).2 rfl

/-- A call that looks whether its wait is over leaves everything as it is, or it leaves. -/
theorem Sound.poll_stays_or_leaves (hs : s.Sound) {k : Ticket} {d : Nat} (hc : c ∈ s.calls)
    (hp : c.point = .awaiting k d) (quiet : s.ousts? c k = none) (pursues : c.Pursues t) :
    s.poll c k d = s ∨ c ∉ (s.poll c k d).calls := by
  rcases hs.poll_cases hc hp quiet with he | ⟨u, _, _, _, _, he⟩ | hb
  · exact Or.inl he
  · rw [he]
    exact Or.inr (not_mem_quit s c k)
  · exact Or.inr fun hx => not_mem_quit s c k (((hb t).pursuers c pursues).mp hx)

/-- An attach is over: its call has left. -/
def Lapses (s : State) (a : Action) : Prop := ∃ c ∈ s.calls, (∃ t, c.Pursues t) ∧ c ∉ (s.act a).calls

/-- An attach that goes on is as live as it was, and so is its tab. -/
theorem Sound.live_of_pursued (hs : s.Sound) {a : Action} (quiet : s.occasion? a = none)
    (hc : c ∈ s.calls) (hp : c.Pursues t) (stays : c ∈ (s.act a).calls) (hl : s.isLive t = true)
    (he : s.Enlisted t) :
    (s.act a).isLive t = true ∧ (s.act a).Enlisted t := by
  obtain ⟨k, d, hpoint⟩ := point_of_waits hp.waits
  by_cases resumed : a = .resume c.id
  · subst resumed
    have hact : s.act (.resume c.id) = s.poll c k d := by
      simp only [State.act, hs.call?_eq hc, resume, hpoint]
    have quiet' : s.ousting? c = none := by
      simpa only [occasion?, hs.call?_eq hc, Option.bind_some] using quiet
    rw [hact] at stays ⊢
    rcases hs.poll_stays_or_leaves hc hpoint (ousts_of_ousting quiet' k d hpoint) hp with h | h
    · rw [h]
      exact ⟨hl, he⟩
    · exact absurd stays h
  · by_cases cancelled : a = .cancel c.id
    · subst cancelled
      have hact : s.act (.cancel c.id) = s.quit c k := by
        simp only [State.act, State.cancel, hs.call?_eq hc, hpoint]
      rw [hact] at stays
      exact absurd stays (not_mem_quit s c k)
    · have hb := hs.beside_act_of_pursues quiet hc hp resumed cancelled
      exact ⟨hb.live.trans hl, hb.enlisted hl he⟩

/-! ### The owner keeps the browser -/

theorem BypassFreeMoves.browser (h : BypassFreeMoves s s') (hs : s.Sound) : s'.browser = s.browser := by
  induction h with
  | refl => rfl
  | tail steps step ih => exact (step.linked (BypassFreeMoves.sound steps hs)).browser.trans ih

theorem browser_before {a : Action} {o : Occasion} (h : s.occasion? a = some o) (hs : s.Sound) :
    o.before.browser = s.browser :=
  (replyFree_before h).bypassFree.browser hs

theorem browser_unwind (s : State) (duties : List Duty) : (s.unwind duties).browser = s.browser :=
  unwind_induction (P := fun x _ => x.browser = s.browser)
    (fun x d _ hx => (browser_perform x d).trans hx) s duties rfl

theorem browser_fire (s : State) (k : Trigger) : (s.fire k).browser = s.browser := by
  cases k with
  | close => exact (browser_unwind _ _).trans (browser_close s)
  | detached u => exact browser_unwind s _
  | terminated id => exact browser_unwind s _

theorem Sound.browser_act (hs : s.Sound) {a : Action} (kept : a ≠ .dropBrowser) :
    (s.act a).browser = s.browser := by
  cases ho : s.occasion? a with
  | some o =>
    rw [act_of_occasion ho]
    exact (browser_fire o.before o.trigger).trans (browser_before ho hs)
  | none =>
    by_cases ordinary : a.isOrdinary = true
    · exact (hs.bypassFree_act ordinary ho).browser hs
    · cases a with
      | handle u m =>
        simp only [State.act]
        cases hu : s.tab? u with
        | none =>
          unfold tabMessage
          rw [hu]
        | some tab =>
          obtain ⟨s₁, es, _, he, hr⟩ := brings_tabMessage (by rw [hu]; rfl) ho
          rw [he]
          show s₁.browser = _
          cases hk : tabReply? m with
          | none =>
            rw [hk] at hr
            obtain rfl := hr
            rfl
          | some command =>
            rw [hk] at hr
            exact (Answer.linked hr).browser
      | dropBrowser => exact absurd rfl kept
      | _ => exact absurd rfl ordinary

theorem Sound.browser_run (hs : s.Sound) {actions : List Action} (kept : .dropBrowser ∉ actions) :
    (s.run actions).browser = s.browser := by
  induction actions generalizing s with
  | nil => rfl
  | cons a rest ih =>
    rw [List.mem_cons, not_or] at kept
    exact (ih (hs.act a) kept.2).trans (hs.browser_act (Ne.symm kept.1))

/-! ### When a connection stays that no tab needs -/

/-- Where a live tab is registered, an action leaves one, or it closes the connection, or an attach is
over by it. -/
theorem Sound.live_act (hs : s.Sound) (candid : ∀ t, s.Candid t) (browser : s.browser = true) (a : Action)
    (live : s.hasLive = true) :
    (s.act a).hasLive = true ∨ (s.act a).connection.connected = false ∨ s.Lapses a := by
  obtain ⟨t, he, hl⟩ := hasLive_iff.mp live
  cases ho : s.occasion? a with
  | some o =>
    have hb : Beside t s o.before := hs.beside_before ho
    have hlive : o.before.hasLive = true := hasLive_iff.mpr ⟨t, hb.enlisted hl he, hb.live.trans hl⟩
    rw [act_of_occasion ho]
    exact (live_or_gone_fire o.trigger ((browser_before ho hs).trans browser) hlive).imp_right Or.inl
  | none =>
    have hl' := hl
    rw [isLive_eq, Bool.or_eq_true] at hl'
    rcases hl' with ha | hm
    · obtain ⟨ha', he'⟩ := (hs.endFree_act ho).keeps_place hs ha he
      exact Or.inl (hasLive_iff.mpr ⟨t, he', isLive_of_attached ha'⟩)
    · obtain ⟨c, hc, hp⟩ := (candid t).mp hm
      by_cases stays : c ∈ (s.act a).calls
      · obtain ⟨hl', he'⟩ := hs.live_of_pursued ho hc hp stays hl he
        exact Or.inl (hasLive_iff.mpr ⟨t, he', hl'⟩)
      · exact Or.inr (Or.inr ⟨c, hc, ⟨t, hp⟩, stays⟩)

/-- The connection is there after the action. -/
def StaysConnected (s : State) (a : Action) : Prop := (s.act a).connection.connected = true

instance (s : State) (a : Action) : Decidable (s.StaysConnected a) :=
  inferInstanceAs (Decidable (_ = true))

/-- The connection is there after the action, and no registered tab is live. -/
def Idles (s : State) (a : Action) : Prop := s.StaysConnected a ∧ (s.act a).hasLive = false

/-- An attach has succeeded since the connection was last started. -/
def Used (start : State) (actions : List Action) : Prop :=
  Since StaysConnected (fun s a => (∃ t, s.Grants t a) ∧ s.StaysConnected a) start actions

theorem since_imp {keep begins : State → Action → Prop} {P : State → Prop} {actions : List Action}
    (kept : ∀ s a, keep s a → P (s.act a)) (begun : ∀ s a, begins s a → P (s.act a))
    (h : Since keep begins s actions) : P (s.run actions) := by
  induction actions using List.reverseRecOn with
  | nil => exact h.elim
  | append_singleton actions a _ =>
    rw [run_append]
    rcases since_concat.mp h with h | ⟨_, h⟩
    · exact begun _ a h
    · exact kept _ a h

theorem Used.connected {actions : List Action} (h : Used s actions) :
    (s.run actions).connection.connected = true :=
  since_imp (P := fun x => x.connection.connected = true) (fun _ _ h => h) (fun _ _ h => h.2) h

/-- A granted attach is over. -/
theorem Grants.lapses (hs : s.Sound) {a : Action} (h : s.Grants t a) : s.Lapses a := by
  obtain ⟨c, hc, rfl⟩ := h
  obtain ⟨_, ⟨k, d, hp, heard⟩, ok⟩ := hc.heard
  have hact : s.act (.resume c.id) = s.granted c t k := by
    rw [← poll_of_accepted (d := d) hc.seeks heard ok]
    simp only [State.act, hs.call?_eq hc.mem, resume, hp]
  refine ⟨c, hc.mem, ⟨t, hc.pursues⟩, ?_⟩
  rw [hact]
  exact not_mem_quit s _ k

/-- In every history in which the owner keeps the browser, a connection on which an attach has succeeded
since it was started has no live tab exactly since an attach ended that left none: it was refused, timed
out, was cancelled or failed, or it was granted to an instance that is not registered. -/
theorem used_connection_idles_exactly_since_lapse (config : Config) (restartable : Bool)
    (rules : List (String × Json)) (actions : List Action) (kept : .dropBrowser ∉ actions) :
    let start := initial config restartable rules
    Used start actions → ((start.run actions).hasLive = false ↔
      Since Idles (fun s a => s.Lapses a ∧ s.Idles a) start actions) := by
  intro start used
  have h₀ : start.Sound := sound_initial config restartable rules
  refine ⟨fun idle => ?_,
    since_imp (P := fun x => x.hasLive = false) (fun _ _ h => h.2) fun _ _ h => h.2.2⟩
  induction actions using List.reverseRecOn with
  | nil => exact used.elim
  | append_singleton actions a ih =>
    have hs : (start.run actions).Sound := h₀.run actions
    have idles : (start.run actions).Idles a := by
      have hc := used.connected
      rw [run_append] at hc idle
      exact ⟨hc, idle⟩
    rw [List.mem_append, not_or] at kept
    rw [since_concat]
    rcases since_concat.mp used with ⟨⟨t, hg⟩, _⟩ | ⟨used, _⟩
    · exact Or.inl ⟨hg.lapses hs, idles⟩
    · cases hl : (start.run actions).hasLive with
      | false => exact Or.inr ⟨ih kept.1 used hl, idles⟩
      | true =>
        have candid : ∀ t, (start.run actions).Candid t :=
          fun t => h₀.candid_run actions (candid_initial config restartable rules t)
        rcases hs.live_act candid (h₀.browser_run kept.1) a hl with h | h | h
        · rw [idles.2] at h
          cases h
        · rw [idles.1] at h
          cases h
        · exact Or.inl ⟨h, idles⟩

theorem since_of_suffix {keep begins : State → Action → Prop} (before : List Action) {after : List Action}
    (h : Since keep begins (s.run before) after) : Since keep begins s (before ++ after) := by
  induction before generalizing s with
  | nil => exact h
  | cons a rest ih => exact Or.inr (ih h)

/-- The server grants a detach of the first tab. -/
def detachReply : Message :=
  .forTab .v8Debugger 7 (.ofFields [("command", .str "detach"), ("result", .ofNat 0)])

/-- The first tab is attached, the attach of the second is not answered, the first is detached, and then
the wait for the second times out. -/
def overlapping : List Action :=
  [.resume 2, .answerWith "attach" .null, .start 3 (.attach 1 { name := "m" }), .resume 3,
    .start 4 (.detach 0), .resume 4, .deliver detachReply, .resume 4, .advance 3000, .resume 3]

theorem used_overlapping : Used (initial {} false obliging) (accepting ++ overlapping) := by
  refine since_of_suffix accepting (Or.inl ⟨⟨⟨0, acceptedCall, accepted_accepting, rfl⟩, ?_⟩, ?_⟩)
  · decide +kernel
  · decide +kernel

/-- No tab is live any more, since the attach of the second tab was over. -/
theorem idle_since_attach_timed_out :
    let start := initial {} false obliging
    (Action.dropBrowser ∉ accepting ++ overlapping) ∧ Used start (accepting ++ overlapping) ∧
      (start.run (accepting ++ overlapping)).hasLive = false ∧
      Since Idles (fun s a => s.Lapses a ∧ s.Idles a) start (accepting ++ overlapping) := by
  intro start
  have kept : Action.dropBrowser ∉ accepting ++ overlapping := by simp [accepting, overlapping]
  have idle : (start.run (accepting ++ overlapping)).hasLive = false := by decide +kernel
  exact ⟨kept, used_overlapping, idle,
    (used_connection_idles_exactly_since_lapse {} false obliging _ kept used_overlapping).mp idle⟩

/-- The connection is kept for no tab when an attach times out that was the last to need it. -/
theorem connection_kept_after_attach_timed_out :
    let start := initial {} false obliging
    let s := start.run (accepting ++ overlapping)
    (Action.dropBrowser ∉ accepting ++ overlapping) ∧ Used start (accepting ++ overlapping) ∧ s.Settled ∧
      s.connection.connected = true ∧ ¬ ∃ t, s.Enlisted t ∧ s.isLive t = true := by
  intro start s
  have idle : s.hasLive = false := by decide +kernel
  refine ⟨by simp [accepting, overlapping], used_overlapping, by decide +kernel, by decide +kernel,
    fun h => ?_⟩
  rw [hasLive_iff.mpr h] at idle
  cases idle

end State
end RemoteDebug.Engine
