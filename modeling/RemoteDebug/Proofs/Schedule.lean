import RemoteDebug.Proofs.Anchor
import RemoteDebug.Proofs.Settling
import RemoteDebug.Scenario.Step

/-! Attachments at the end of every step of a run.

A step starts where the session has settled, so it lets at most one attach be answered, and
the call that asked for it goes on before anything else happens. Hence attached
instances have their place whenever the session has settled: each is the one that is
registered under its own id, and the connection is there. -/
namespace RemoteDebug.Engine
open Protocol Wire

namespace State

variable {s s' : State} {c : Call}

/-- An attach was answered, and the call that asked for it is the one to go on. -/
structure Due (s : State) (c : Call) : Prop where
  mem : c ∈ s.calls
  about : ∃ t l, c.request = .attach t l ∧ s.Enlisted t
  answered : ∃ k dl, c.point = .awaiting k dl ∧
    (s.view.board c.request.desk).receiver? k = some (.answered ())
  connected : s.connection.connected = true
  only : ∀ x ∈ s.calls, s.runnable x = true → x = c

/-- Attachments are in their place, and an attach that is answered goes on at once. -/
def Timely (s : State) : Prop := s.Anchored [] ∧ (s.Unanswered ∨ ∃ c, s.Due c)

theorem Timely.of_unanswered (h : s.Anchored [] ∧ s.Unanswered) : s.Timely :=
  ⟨h.1, Or.inl h.2⟩

theorem Anchored.note (h : s.Anchored []) (es : List Entry) : (s.note es).Anchored [] where
  attentive := h.attentive.of_eq id rfl rfl rfl rfl
  attached := h.attached
  waiting := h.waiting

theorem Timely.note (h : s.Timely) (es : List Entry) : (s.note es).Timely := by
  refine ⟨h.1.note es, h.2.imp id fun ⟨c, hd⟩ => ⟨c, ?_⟩⟩
  exact ⟨hd.mem, hd.about, hd.answered, hd.connected, hd.only⟩

theorem Due.runnable {c : Call} (h : s.Due c) (hs : s.Sound) : s.runnable c = true := by
  obtain ⟨k, dl, hp, hr⟩ := h.answered
  exact hs.runnable_of_heard ⟨h.mem, rfl, dl, hp⟩ hr fun he => by cases he

theorem Timely.unanswered (h : s.Timely) (hs : s.Sound) (still : ∀ c ∈ s.calls, s.runnable c = false) :
    s.Unanswered := by
  refine h.2.resolve_right ?_
  rintro ⟨c, hd⟩
  have hr := hd.runnable hs
  rw [still c hd.mem] at hr
  cases hr

/-! ### A reply comes in -/

/-- A reply that reaches an attach reaches it by the registry, on a connection. -/
theorem Answer.timely {d : Desk} {command : String} (ha : Answer s d command s') (hs : s.Sound)
    (routed : ∀ t, d = .tab t → s.Enlisted t) (h : s.Anchored []) (hn : s.Unanswered)
    (still : ∀ c ∈ s.calls, s.runnable c = false) : s'.Timely := by
  refine ⟨ha.anchored hs routed h, ?_⟩
  by_cases hn' : s'.Unanswered
  · exact Or.inl hn'
  · refine Or.inr ?_
    obtain ⟨t, hw⟩ := not_forall_not.mp hn'
    obtain ⟨hd, hwait⟩ : d = .tab t ∧ s.view.Awaits .attach t .waiting := by
      rcases ha.awaits hw with hold | ⟨_, hd, hwait⟩
      · exact absurd hold (hn t)
      · exact ⟨hd, hwait⟩
    obtain ⟨c, k, hck, hx, hr⟩ := hw
    have he := routed t hd
    refine ⟨c, hck.1, ?_, ?_, ?_, ?_⟩
    · have he' : s'.Enlisted t := by
        unfold Enlisted
        rw [ha.registry]
        exact he
      cases hq : c.request with
      | attach u l =>
        rw [hq] at hx
        cases hx
        exact ⟨t, l, rfl, he'⟩
      | _ =>
        rw [hq] at hx
        cases hx
    · obtain ⟨_, hdesk, dl, hp⟩ := hck
      exact ⟨k, dl, hp, hdesk.symm ▸ hr⟩
    · exact ha.linked.lasts ((h.waiting t hwait he).resolve_right List.not_mem_nil)
    · obtain rfl := hd
      exact ha.only hs still hck hr fun he => by cases he

theorem Brings.timely {d : Desk} {reply : Option String} (hb : Brings s d reply s') (hs : s.Sound)
    (routed : ∀ t, d = .tab t → s.Enlisted t) (h : s.Anchored []) (hn : s.Unanswered)
    (still : ∀ c ∈ s.calls, s.runnable c = false) : s'.Timely := by
  obtain ⟨s₁, es, _, rfl, hr⟩ := hb
  refine Timely.note ?_ es
  cases reply with
  | none =>
    obtain rfl : s₁ = s := hr
    exact ⟨h, Or.inl hn⟩
  | some command => exact Answer.timely hr hs routed h hn still

theorem Anchored.timely_deliver {m : Message} (h : s.Anchored []) (hs : s.Sound) (hn : s.Unanswered)
    (still : ∀ c ∈ s.calls, s.runnable c = false) (quiet : s.delivering? m = none) :
    (s.deliver m).Timely := by
  by_cases hl : s.listens = true
  · rcases hs.brings_deliver hl quiet with ⟨d, _, hb, routed⟩ | ⟨_, n, he⟩
    · exact hb.timely hs routed h hn still
    · rw [he, logged_eq]
      exact Timely.note ⟨h, Or.inl hn⟩ _
  · unfold deliver
    rw [if_neg hl]
    exact ⟨h, Or.inl hn⟩

/-- While no call can go on, whatever happens leaves attachments in order. -/
theorem Anchored.timely_act {a : Action} (h : s.Anchored []) (hs : s.Sound) (hn : s.Unanswered)
    (still : ∀ c ∈ s.calls, s.runnable c = false) (ha : a.isOrdinary = true) : (s.act a).Timely := by
  by_cases hu : a.isReplyFree = true ∨ (s.occasion? a).isSome = true
  · exact .of_unanswered (h.act hs hn hu)
  · obtain ⟨hu, ho⟩ := not_or.mp hu
    have quiet : s.occasion? a = none := by simpa using ho
    cases a with
    | receive =>
      simp only [occasion?] at quiet
      simp only [State.act, receive]
      split
      · exact ⟨h, Or.inl hn⟩
      · next m rest hi =>
        simp only [hi] at quiet
        have hw := replyFree_popped s rest
        exact (hw.anchored hs hn h).timely_deliver (hw.sound hs) (hw.unanswered hs hn) still quiet
    | deliver m => exact h.timely_deliver hs hn still quiet
    | separateMessage m =>
      exact (brings_separateMessage s m).timely hs (fun _ => Desk.noConfusion) h hn still
    | handle t m => cases ha
    | dropBrowser => cases ha
    | _ => exact absurd rfl hu

/-! ### The call goes on -/

theorem resume_of_answered {t : Instance} {l : Listener} {k : Ticket} {dl : Nat}
    (about : c.request = .attach t l) (hp : c.point = .awaiting k dl)
    (hr : (s.view.board c.request.desk).receiver? k = some (.answered ())) :
    s.resume c = s.granted c t k ∨ ∃ es, s.resume c = (s.quit c k).note es := by
  have hb : (s.tabTable t).blank.receiver? k = some (.answered ()) := by
    rw [about] at hr
    exact hr
  rw [Pending.receiver?_blank] at hb
  obtain ⟨x, hx, hblank⟩ := Option.map_eq_some_iff.mp hb
  cases x with
  | waiting => cases hblank
  | failed => cases hblank
  | answered reply =>
    have hw : s.waitEnd? (s.tabTable t) c.request k dl = some (.ok reply) := waitEnd?_ok.mpr hx
    unfold State.resume
    rw [hp]
    show s.poll c k dl = _ ∨ ∃ es, s.poll c k dl = _
    rw [poll_of_tab (by rw [about]; rfl), hw]
    simp only [Option.map_some, Option.getD_some, handshakeEnds, about, attachEnds]
    split
    · exact Or.inl rfl
    · refine Or.inr ?_
      rw [logRejected_eq]
      exact ⟨_, note_note _ _ _⟩

/-- The attach that was answered is the only one, so that no other is when the call has left. -/
theorem Due.unanswered_quit (h : s.Due c) (hs : s.Sound) (k : Ticket) :
    ∀ t, ¬ (s.view.quit c k).Awaits .attach t (.answered ()) := by
  rintro t ⟨x, k', hw, _, hr⟩
  obtain ⟨hw, hne⟩ := View.waits_quit.mp hw
  have hx := hs.runnable_of_heard hw (View.receiver_quit hr) fun he => by cases he
  exact hne (congrArg Call.id (h.only x hw.1 hx))

theorem registry_quit (hs : s.Sound) (mem : c ∈ s.calls) (k : Ticket) :
    (s.quit c k).registry = s.registry := by
  show (s.quit c k).view.registry = s.registry
  rw [view_quit s c k (hs.hasTab mem), View.quit_eq]
  rfl

theorem enlisted_quit (hs : s.Sound) (mem : c ∈ s.calls) (k : Ticket) :
    (s.quit c k).Enlisted = s.Enlisted := by
  unfold Enlisted
  rw [registry_quit hs mem]

/-- Attachments stay in their place when a call stops waiting. -/
theorem Anchored.quit (ha : s.Anchored []) (hs : s.Sound) {k : Ticket} {dl : Nat} (mem : c ∈ s.calls)
    (hp : c.point = .awaiting k dl) : (s.quit c k).Anchored [] := by
  have hquit : BypassFreeMove s (s.quit c k) := .replyFree (.change (.quit c k dl mem hp))
  have hv := view_quit s c k (hs.hasTab mem)
  refine ⟨hquit.attentive hs ha.attentive, fun u hu => ?_, fun u hw he => ?_⟩
  · change (s.quit c k).view.attached u = true at hu
    rw [hv, View.quit_eq] at hu
    rw [enlisted_quit hs mem, connection_quit]
    exact ha.attached u hu
  · rw [hv] at hw
    rw [enlisted_quit hs mem] at he
    rw [connection_quit]
    exact ha.waiting u (View.awaits_quit hw) he

/-- The call that is due attaches its instance, which has its place, or it leaves. -/
theorem Due.timely (h : s.Due c) (hs : s.Sound) (ha : s.Anchored []) :
    (s.resume c).Anchored [] ∧ (s.resume c).Unanswered := by
  obtain ⟨t, l, about, enlisted⟩ := h.about
  obtain ⟨k, dl, hp, hr⟩ := h.answered
  have hq := ha.quit hs h.mem hp
  have hv := view_quit s c k (hs.hasTab h.mem)
  have unanswered := h.unanswered_quit hs k
  rw [← hv] at unanswered
  rcases resume_of_answered about hp hr with he | ⟨es, he⟩
  · -- but for the attachment, nothing is other than without the call
    have awaits : ∀ u r, (s.granted c t k).view.Awaits .attach u r →
        (s.quit c k).view.Awaits .attach u r := by
      intro u r hw
      rw [hs.view_granted h.mem about k] at hw
      rw [hv]
      exact hw
    rw [he]
    refine ⟨⟨hq.attentive.of_eq id rfl rfl rfl rfl, fun u hu => ?_,
      fun u hw => hq.waiting u (awaits u _ hw)⟩, fun u hw => unanswered u (awaits u _ hw)⟩
    rw [attached_granted hs h.mem about] at hu
    show (s.quit c k).Enlisted u ∧ (s.quit c k).connection.connected = true ∨ _
    rw [enlisted_quit hs h.mem, connection_quit]
    split at hu
    · next hut => exact Or.inl ⟨hut ▸ enlisted, h.connected⟩
    · exact ha.attached u hu
  · rw [he]
    exact ⟨Anchored.note hq es, unanswered⟩

/-! ### Reachable states -/

/-- An action that can happen now: a call that can go on does so, or, when there is none, anything
that leaves the browser to its owner and has messages reach tabs through the connection. -/
def Permits (s : State) (a : Action) : Prop :=
  a.isOrdinary = true ∧
    ((∃ c ∈ s.calls, s.runnable c = true ∧ a = .resume c.id) ∨
      ∀ c ∈ s.calls, s.runnable c = false)

/-- The states that a session comes to by such actions, whatever is kept of its journal. -/
inductive Reached : State → Prop
  | initial (config : Config) (restartable : Bool) (rules : List (String × Json)) :
      Reached (initial config restartable rules)
  | act {s : State} {a : Action} (h : Reached s) (permitted : s.Permits a) : Reached (s.act a)
  | forget {s : State} (h : Reached s) : Reached { s with journal := [] }

theorem Timely.act {a : Action} (h : s.Timely) (hs : s.Sound) (permitted : s.Permits a) :
    (s.act a).Timely := by
  obtain ⟨ordinary, hr⟩ := permitted
  rcases hr with ⟨c, hc, hr, rfl⟩ | still
  · rcases h.2 with hn | ⟨c', hd⟩
    · exact .of_unanswered (h.1.act hs hn (Or.inl rfl))
    · obtain rfl := hd.only c hc hr
      simp only [State.act, hs.call?_eq hc]
      exact .of_unanswered (hd.timely hs h.1)
  · exact h.1.timely_act hs (h.unanswered hs still) still ordinary

theorem Anchored.forget (h : s.Anchored []) : ({ s with journal := [] } : State).Anchored [] where
  attentive := h.attentive.of_eq id rfl rfl rfl rfl
  attached := h.attached
  waiting := h.waiting

theorem anchored_initial (config : Config) (restartable : Bool) (rules : List (String × Json)) :
    (initial config restartable rules).Anchored [] where
  attentive := attentive_initial config restartable rules
  attached := fun _ ha => by cases ha
  waiting := fun _ ⟨_, _, hw, _⟩ => by cases hw.1

theorem Reached.sound (h : s.Reached) : s.Sound := by
  induction h with
  | initial config restartable rules => exact sound_initial config restartable rules
  | act _ _ ih => exact ih.act _
  | forget _ ih => exact ih

theorem Reached.timely (h : s.Reached) : s.Timely := by
  induction h with
  | initial config restartable rules =>
    exact ⟨anchored_initial config restartable rules, Or.inl fun t ⟨_, _, hw, _⟩ => by cases hw.1⟩
  | act h permitted ih => exact ih.act h.sound permitted
  | forget _ ih =>
    refine ⟨ih.1.forget, ih.2.imp id fun ⟨c, hd⟩ => ⟨c, ?_⟩⟩
    exact ⟨hd.mem, hd.about, hd.answered, hd.connected, hd.only⟩

theorem permits_next {a : Action} (h : s.next? = some a) : s.Permits a := by
  rcases next?_cases h with ⟨c, hc, hr, rfl⟩ | ⟨still, rfl, _⟩
  · exact ⟨rfl, Or.inl ⟨c, hc, hr, rfl⟩⟩
  · exact ⟨rfl, Or.inr still⟩

theorem Reached.settle (h : s.Reached) : s.settle.Reached :=
  settleIn_induction (P := Reached) (fun _ _ _ h ha => h.act (permits_next ha)) _ h.sound h

theorem Settled.permits {a : Action} (h : s.Settled) (ordinary : a.isOrdinary = true) : s.Permits a :=
  ⟨ordinary, Or.inr (settled_iff.mp h).1⟩

end State
end RemoteDebug.Engine

namespace RemoteDebug.Scenario
open Engine Protocol

/-- A step that starts no call is at most one action, which is ordinary if the step is. -/
theorem Step.actions_cases (step : Step) :
    step.actions = [] ∨ ∃ a, step.actions = [a] ∧ (step.isOrdinary = true → a.isOrdinary = true) := by
  cases step with
  | fault site e => cases site <;> exact Or.inr ⟨_, rfl, id⟩
  | _ => first | exact Or.inl rfl | exact Or.inr ⟨_, rfl, id⟩

namespace Run

variable {r : Run}

theorem reached_begin (h : r.state.Reached) (settled : r.state.Settled) {step : Step}
    (ordinary : step.isOrdinary = true) : (r.begin step).1.Reached := by
  unfold begin
  split
  · exact h
  · split
    · next request _ => exact h.act (a := .start r.taken request) (settled.permits rfl)
    · dsimp only
      rcases step.actions_cases with hnone | ⟨a, ha, hord⟩
      · rw [hnone]
        exact h
      · rw [ha]
        exact h.act (settled.permits (hord ordinary))

/-- A step takes a settled session to a settled one. -/
theorem reached_take (h : r.state.Reached) (settled : r.state.Settled) {step : Step}
    (ordinary : step.isOrdinary = true) :
    (r.take step).1.state.Reached ∧ (r.take step).1.state.Settled := by
  have hb := reached_begin h settled ordinary
  exact ⟨hb.settle.forget, hb.sound.settled_settle⟩

theorem reached_after (h : r.state.Reached) (settled : r.state.Settled) (steps : List Step)
    (ordinary : ∀ step ∈ steps, step.isOrdinary = true) :
    (r.after steps).state.Reached ∧ (r.after steps).state.Settled := by
  induction steps generalizing r with
  | nil => exact ⟨h, settled⟩
  | cons step rest ih =>
    obtain ⟨h', settled'⟩ := reached_take h settled (ordinary step (List.mem_cons_self ..))
    exact ih h' settled' fun x hx => ordinary x (List.mem_cons_of_mem _ hx)

/-- At the end of every step, of a run whose owner keeps the browser and whose messages reach tabs
through the connection, nothing is left to be done, each attached instance is the one that is
registered under its own id, and the connection is there. So no two instances of an id are attached. -/
theorem attached_is_registered (config : Config) (restartable : Bool) (rules : List (String × Json))
    (steps : List Step) (ordinary : ∀ step ∈ steps, step.isOrdinary = true) :
    let s := ((start config restartable rules).after steps).state
    s.Settled ∧
      (∀ t tab, s.tab? t = some tab → tab.attached = true →
        s.registered? tab.id = some t ∧ s.connection.connected = true) ∧
      ∀ t u tab other, s.tab? t = some tab → s.tab? u = some other → tab.attached = true →
        other.attached = true → tab.id = other.id → t = u := by
  intro s
  obtain ⟨h, settled⟩ := reached_after (r := start config restartable rules)
    (.initial config restartable rules) rfl steps ordinary
  have each : ∀ t tab, s.tab? t = some tab → tab.attached = true →
      s.registered? tab.id = some t ∧ s.connection.connected = true := by
    intro t tab ht hat
    have ha : s.isAttached t = true := by
      unfold State.isAttached
      rw [ht]
      exact hat
    obtain ⟨he, hc⟩ := (h.timely.1.attached t ha).resolve_right List.not_mem_nil
    have hid : s.view.ident t = some tab.id := by
      show (s.tab? t).map (·.id) = _
      rw [ht]
      rfl
    exact ⟨(h.sound.enlisted_iff hid).mp he, hc⟩
  refine ⟨settled, each, fun t u tab other ht hu hat hau hid => ?_⟩
  have h₁ := (each t tab ht hat).1
  have h₂ := (each u other hu hau).1
  rw [hid, h₂] at h₁
  exact (Option.some.inj h₁).symm

/-- A run in which an instance comes to be attached, and is the registered one. -/
theorem attached_with_obliging_server :
    let steps := [.connect, .tabs, .attach 0 "l" .explained]
    let s := ((start {} false obliging).after steps).state
    (∀ step ∈ steps, step.isOrdinary = true) ∧ (s.tab? 0).map (·.attached) = some true ∧
      ∀ tab, s.tab? 0 = some tab → tab.attached = true →
        s.registered? tab.id = some 0 ∧ s.connection.connected = true := by
  intro steps s
  have ordinary : ∀ step ∈ steps, step.isOrdinary = true := by decide
  obtain ⟨_, each, _⟩ := attached_is_registered {} false obliging steps ordinary
  exact ⟨ordinary, by decide +kernel, each 0⟩

end Run
end RemoteDebug.Scenario
