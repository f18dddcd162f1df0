import RemoteDebug.Proofs.Beside
import RemoteDebug.Proofs.Closing
import RemoteDebug.Proofs.Settling

/-! When a tab is attached.

A tab comes to be attached when the call that asked for it goes on after it heard that it is accepted,
and it stays attached until something ends that reaches it. What ends before the call goes on reaches
nothing: the reply is heard already, and the tab is not attached yet. -/
namespace RemoteDebug.Engine
open Protocol Wire

namespace State

variable {s s' x : State} {c : Call} {t : Instance} {rest : List Duty}

/-! ### What lasts -/

/-- Every action keeps it. -/
def Lasts (keep : State → Action → Prop) (s : State) : List Action → Prop
  | [] => True
  | a :: rest => keep s a ∧ Lasts keep (s.act a) rest

/-- Some action began it, and every action after that kept it. -/
def Since (keep begins : State → Action → Prop) (s : State) : List Action → Prop
  | [] => False
  | a :: rest => (begins s a ∧ Lasts keep (s.act a) rest) ∨ Since keep begins (s.act a) rest

instance decidableLasts (keep : State → Action → Prop) [∀ s a, Decidable (keep s a)] (s : State)
    (actions : List Action) : Decidable (Lasts keep s actions) :=
  match actions with
  | [] => isTrue trivial
  | a :: rest => @instDecidableAnd _ _ inferInstance (decidableLasts keep (s.act a) rest)

theorem lasts_concat {keep : State → Action → Prop} {actions : List Action} {a : Action} :
    Lasts keep s (actions ++ [a]) ↔ Lasts keep s actions ∧ keep (s.run actions) a := by
  induction actions generalizing s with
  | nil => exact and_comm
  | cons b rest ih => exact (and_congr_right fun _ => ih).trans and_assoc.symm

theorem since_concat {keep begins : State → Action → Prop} {actions : List Action} {a : Action} :
    Since keep begins s (actions ++ [a]) ↔
      begins (s.run actions) a ∨ (Since keep begins s actions ∧ keep (s.run actions) a) := by
  induction actions generalizing s with
  | nil => simp [Since, Lasts, run]
  | cons b rest ih =>
    show (begins s b ∧ Lasts keep (s.act b) (rest ++ [a])) ∨ Since keep begins (s.act b) (rest ++ [a]) ↔
      begins ((s.act b).run rest) a ∨
        ((begins s b ∧ Lasts keep (s.act b) rest ∨ Since keep begins (s.act b) rest) ∧
          keep ((s.act b).run rest) a)
    rw [lasts_concat, ih]
    tauto

/-- What holds after an action exactly if the action begins it, or keeps it where it holds, holds exactly
since it began. -/
theorem since_iff {P : State → Prop} {keep begins : State → Action → Prop} (start : ¬ P s)
    (step : ∀ actions a, P ((s.run actions).act a) ↔
      begins (s.run actions) a ∨ (P (s.run actions) ∧ keep (s.run actions) a))
    (actions : List Action) : P (s.run actions) ↔ Since keep begins s actions := by
  induction actions using List.reverseRecOn with
  | nil => exact iff_of_false start id
  | append_singleton actions a ih =>
    rw [since_concat, ← ih, run_append]
    exact step actions a

/-! ### What an end reaches -/

/-- What is to be done ends the attachment of a tab: it is to be detached, or the tab of its id is to be
dropped, if it is the one that is registered, or another instance of its id is to be detached. -/
def Touches (x : State) (t : Instance) : Duty → Prop
  | .detach u => u = t ∨ (x.isAttached u = true ∧ x.alive = true ∧
      ∃ id, x.view.ident u = some id ∧ x.registered? id = some t)
  | .terminate id => x.registered? id = some t
  | .closeIfIdle => False

/-- An end reaches a tab. -/
def Reaches (x : State) (t : Instance) : Trigger → Prop
  | .close => x.connection.connected = true ∧ x.listens = true ∧ x.Enlisted t
  | .detached u => x.Touches t (.detach u)
  | .terminated id => x.Touches t (.terminate id)

/-- The action ends something that reaches the tab. -/
def Ends (s : State) (t : Instance) (a : Action) : Prop :=
  ∃ o, s.occasion? a = some o ∧ o.before.Reaches t o.trigger

/-- The tab is attached, and nothing that is to be done ends that. -/
def Exempt (x : State) (t : Instance) (duties : List Duty) : Prop :=
  x.isAttached t = true ∧ ∀ d ∈ duties, ¬ x.Touches t d

theorem exempt_cons {d : Duty} {duties : List Duty} :
    x.Exempt t (d :: duties) ↔ ¬ x.Touches t d ∧ x.Exempt t duties := by
  unfold Exempt
  rw [List.forall_mem_cons]
  exact and_left_comm

theorem touches_congr {d : Duty} (attached : ∀ u, d = .detach u → s'.isAttached u = s.isAttached u)
    (alive : s'.alive = s.alive) (ident : s'.view.ident = s.view.ident)
    (registered : ∀ id, s'.registered? id = some t ↔ s.registered? id = some t) :
    s'.Touches t d ↔ s.Touches t d := by
  cases d with
  | detach u => simp only [Touches, attached u rfl, alive, ident, registered]
  | terminate id => exact registered id
  | closeIfIdle => exact Iff.rfl

theorem exempt_of_touched {d : Duty} {duties : List Duty} (hm : d ∈ duties) (h : x.Touches t d) :
    ¬ x.Exempt t duties :=
  fun he => he.2 d hm h

/-- What the detach of another instance leaves to do reaches a tab exactly if the detach does. -/
theorem touched_by_detach {u : Instance} (hne : u ≠ t) :
    (∃ d ∈ (x.perform (.detach u)).2, (x.perform (.detach u)).1.Touches t d) ↔
      x.Touches t (.detach u) := by
  constructor
  · rintro ⟨d, hd, ht⟩
    obtain ⟨k, rfl, alive, ha, hid⟩ := duty_of_detach hd
    refine Or.inr ⟨ha, alive, k, hid, ?_⟩
    change (x.perform (.detach u)).1.registry.lookup k = some t at ht
    rw [registry_detach] at ht
    exact ht
  · rintro (rfl | ⟨ha, alive, id, hid, hreg⟩)
    · exact absurd rfl hne
    · refine ⟨.terminate id, ?_, ?_⟩
      · rw [duties_detach alive ha hid]
        exact List.mem_singleton.mpr rfl
      · show (x.perform (.detach u)).1.registry.lookup id = some t
        rw [registry_detach]
        exact hreg

theorem exempt_detach {u : Instance} :
    (x.perform (.detach u)).1.Exempt t ((x.perform (.detach u)).2 ++ rest) ↔
      x.Exempt t (.detach u :: rest) := by
  by_cases hu : u = t
  · subst hu
    refine ⟨fun h => ?_, fun h => absurd h (exempt_of_touched (List.mem_cons_self ..) (Or.inl rfl))⟩
    have ha := h.1
    rw [attached_detach, if_pos rfl] at ha
    cases ha
  · have hmore := touched_by_detach (x := x) hu
    by_cases ht : x.Touches t (.detach u)
    · obtain ⟨d, hd, htd⟩ := hmore.mpr ht
      exact ⟨fun h => absurd h (exempt_of_touched (List.mem_append_left _ hd) htd),
        fun h => absurd h (exempt_of_touched (List.mem_cons_self ..) ht)⟩
    · -- the detach reaches the tab neither by itself nor by what it leaves to do
      have hsame : ∀ d, (x.perform (.detach u)).1.Touches t d ↔ x.Touches t d := by
        intro d
        by_cases hd : d = .detach u
        · subst hd
          refine ⟨?_, fun h => absurd h ht⟩
          rintro (h | ⟨ha, _⟩)
          · exact absurd h hu
          · rw [attached_detach, if_pos rfl] at ha
            cases ha
        · refine touches_congr (fun v hv => ?_) (alive_perform x _) (ident_detach x u) fun id => ?_
          · rw [attached_detach, if_neg fun h => hd (by rw [hv, h])]
          · unfold registered?
            rw [registry_detach]
      have hnone : ∀ d ∈ (x.perform (.detach u)).2, ¬ (x.perform (.detach u)).1.Touches t d :=
        fun d hd htd => ht (hmore.mp ⟨d, hd, htd⟩)
      rw [exempt_cons]
      unfold Exempt
      rw [List.forall_mem_append, attached_detach, if_neg (Ne.symm hu)]
      simp only [hsame] at hnone ⊢
      exact ⟨fun ⟨ha, _, hr⟩ => ⟨ht, ha, hr⟩, fun ⟨_, ha, hr⟩ => ⟨ha, hnone, hr⟩⟩

theorem Sound.exempt_terminate (hs : x.Sound) {id : TabId} :
    (x.perform (.terminate id)).1.Exempt t ((x.perform (.terminate id)).2 ++ rest) ↔
      x.Exempt t (.terminate id :: rest) := by
  have hattached : ∀ u, (x.perform (.terminate id)).1.isAttached u = x.isAttached u := by
    intro u
    rw [registry_terminate]
    rfl
  by_cases ht : x.registered? id = some t
  · refine ⟨fun h => ?_, fun h => absurd h (exempt_of_touched (List.mem_cons_self ..) ht)⟩
    have ha := h.1
    rw [hattached] at ha
    refine absurd h (exempt_of_touched (d := .detach t) (List.mem_append_left _ ?_) (Or.inl rfl))
    unfold State.perform
    simp only [ht, ha, if_true]
    exact List.mem_cons_self ..
  · have hregistered : ∀ k, (x.perform (.terminate id)).1.registered? k =
        if k = id then none else x.registered? k := by
      intro k
      rw [registry_terminate]
      exact lookup_filter_ne ..
    have hsame : ∀ d, (x.perform (.terminate id)).1.Touches t d ↔ x.Touches t d := by
      intro d
      refine touches_congr (fun u _ => hattached u) (alive_perform x _) (by rw [registry_terminate]; rfl)
        fun k => ?_
      rw [hregistered]
      split
      · next hk =>
        rw [hk]
        exact ⟨fun h => (by cases h), fun h => absurd h ht⟩
      · exact Iff.rfl
    have hnone : ∀ d ∈ (x.perform (.terminate id)).2, ¬ x.Touches t d := by
      intro d hd htd
      rcases duty_of_terminate hd with rfl | ⟨w, rfl, hw⟩
      · exact htd
      · rcases htd with rfl | ⟨_, _, k, hk, hreg⟩
        · exact ht hw
        · -- the other instance is the registered one of its id
          rw [hs.own id w (mem_of_lookup hw)] at hk
          rw [← Option.some.inj hk] at hreg
          exact ht hreg
    rw [exempt_cons]
    unfold Exempt
    rw [List.forall_mem_append, hattached]
    simp only [hsame]
    exact ⟨fun ⟨ha, _, hr⟩ => ⟨ht, ha, hr⟩, fun ⟨_, ha, hr⟩ => ⟨ha, hnone, hr⟩⟩

/-- A connection that no live tab needs closes without reaching an attached tab. -/
theorem exempt_closeIfIdle :
    (x.perform .closeIfIdle).1.Exempt t ((x.perform .closeIfIdle).2 ++ rest) ↔
      x.Exempt t (.closeIfIdle :: rest) := by
  have htail : x.Exempt t (.closeIfIdle :: rest) ↔ x.Exempt t rest :=
    exempt_cons.trans ⟨And.right, fun h => ⟨id, h⟩⟩
  rw [perform_closeIfIdle, htail]
  split
  · exact Iff.rfl
  · next hl =>
    have hsame : ∀ d, x.close.1.Touches t d ↔ x.Touches t d := by
      refine fun d => touches_congr (fun u _ => isAttached_close x u) ?_ ?_ fun id => ?_
      · have := alive_perform x .closeIfIdle
        rw [perform_closeIfIdle, if_neg hl] at this
        exact this
      · rw [view_close]
        split <;> rfl
      · unfold registered?
        rw [registry_close]
    have hnone : x.isAttached t = true → ∀ d ∈ x.close.2, ¬ x.Touches t d := by
      intro ha d hd htd
      unfold State.close at hd
      split at hd
      · split at hd
        · obtain ⟨r, hr, rfl⟩ := List.mem_map.mp hd
          have hidle : ¬ x.isLive r.2 = true := fun h => hl (List.any_eq_true.mpr ⟨r, hr, h⟩)
          rcases htd with hrt | ⟨har, _⟩
          · rw [hrt] at hidle
            exact hidle (isLive_of_attached ha)
          · exact hidle (isLive_of_attached har)
        · cases hd
      · cases hd
    unfold Exempt
    rw [List.forall_mem_append, isAttached_close]
    simp only [hsame]
    exact ⟨fun ⟨ha, _, hr⟩ => ⟨ha, hr⟩, fun ⟨ha, hr⟩ => ⟨ha, hnone ha, hr⟩⟩

theorem Sound.exempt_perform (hs : x.Sound) (d : Duty) :
    (x.perform d).1.Exempt t ((x.perform d).2 ++ rest) ↔ x.Exempt t (d :: rest) := by
  cases d with
  | detach u => exact exempt_detach
  | terminate id => exact hs.exempt_terminate
  | closeIfIdle => exact exempt_closeIfIdle

/-- Once all is done a tab is attached exactly if it was and nothing that was to be done reached it. -/
theorem Sound.attached_unwind (hs : x.Sound) (duties : List Duty) :
    (x.unwind duties).isAttached t = true ↔ x.Exempt t duties := by
  have h := unwind_induction (P := fun y ds => y.Sound ∧ (y.Exempt t ds ↔ x.Exempt t duties))
    (fun y d ds ⟨hy, h⟩ => ⟨hy.perform d, (hy.exempt_perform d).trans h⟩) x duties ⟨hs, Iff.rfl⟩
  rw [← h.2]
  exact ⟨fun ha => ⟨ha, fun d hd => by cases hd⟩, And.left⟩

theorem exempt_singleton {d : Duty} : x.Exempt t [d] ↔ x.isAttached t = true ∧ ¬ x.Touches t d :=
  and_congr_right fun _ => ⟨fun h => h d (List.mem_singleton.mpr rfl), fun h _ he =>
    List.mem_singleton.mp he ▸ h⟩

/-- A tab survives an end exactly if the end does not reach it. -/
theorem Sound.attached_fire (hs : x.Sound) (k : Trigger) :
    (x.fire k).isAttached t = true ↔ x.isAttached t = true ∧ ¬ x.Reaches t k := by
  cases k with
  | close =>
    show (x.close.1.unwind x.close.2).isAttached t = true ↔ _
    rw [hs.close.attached_unwind]
    unfold Exempt
    rw [isAttached_close]
    refine and_congr_right fun ha => ?_
    unfold Reaches
    unfold State.close
    cases hc : x.connection.connected with
    | false => simp
    | true =>
      cases hl : x.listens with
      | false => simp
      | true =>
        simp only [if_true, true_and, List.forall_mem_map]
        constructor
        · rintro h ⟨id, hm⟩
          exact h (id, t) hm (Or.inl rfl)
        · rintro h r hr (hrt | ⟨_, _, k, hk, hreg⟩)
          · exact h ⟨r.1, hrt ▸ hr⟩
          · exact h ⟨k, mem_of_lookup hreg⟩
  | detached u => exact (hs.attached_unwind _).trans exempt_singleton
  | terminated id => exact (hs.attached_unwind _).trans exempt_singleton

/-! ### What grants an attach -/

/-- A call waits that asked for an attach of the tab, and it has heard that the tab is accepted. -/
structure Accepted (s : State) (t : Instance) (c : Call) : Prop where
  mem : c ∈ s.calls
  seeks : c.request.Seeks t
  heard : ∃ reply, s.Answered t c reply ∧ reply.code.isOk = true

/-- The action lets such a call go on. -/
def Grants (s : State) (t : Instance) (a : Action) : Prop := ∃ c, s.Accepted t c ∧ a = .resume c.id

theorem Accepted.pursues (h : s.Accepted t c) : c.Pursues t := by
  obtain ⟨_, ⟨k, d, hp, _⟩, _⟩ := h.heard
  exact ⟨h.seeks, fun idle => idle k d hp⟩

theorem isAttached_quit (hs : s.Sound) (hc : c ∈ s.calls) (k : Ticket) :
    (s.quit c k).isAttached t = s.isAttached t := by
  show (s.quit c k).view.attached t = _
  rw [view_quit s c k (hs.hasTab hc), View.quit_eq]
  rfl

theorem poll_of_accepted {k : Ticket} {d : Nat} {reply : DebuggerReply} (seeks : c.request.Seeks t)
    (heard : (s.tabTable t).receiver? k = some (.answered reply)) (ok : reply.code.isOk = true) :
    s.poll c k d = s.granted c t k := by
  obtain ⟨l, hr⟩ := seeks.eq
  have hw : s.waitEnd? (s.tabTable t) c.request k d = some (.ok reply) := waitEnd?_ok.mpr heard
  rw [poll_of_tab (by rw [hr]; rfl), hw]
  simp only [Option.map_some, Option.getD_some, handshakeEnds, hr, attachEnds, ok, if_true]
  rfl

theorem Sound.attached_granted_seeks (hs : s.Sound) (hc : c ∈ s.calls) (seeks : c.request.Seeks t)
    (k : Ticket) : (s.granted c t k).isAttached t = true := by
  obtain ⟨l, hr⟩ := seeks.eq
  rw [attached_granted hs hc hr, if_pos rfl]

/-- A wait for an attach ends with the tab attached exactly if the call heard that it is accepted. -/
theorem Sound.attached_poll (hs : s.Sound) {k : Ticket} {d : Nat} (hc : c ∈ s.calls)
    (hp : c.point = .awaiting k d) (seeks : c.request.Seeks t) :
    (s.poll c k d).isAttached t = true ↔ s.Accepted t c ∨ s.isAttached t = true := by
  have quiet : s.ousts? c k = none := by
    obtain ⟨l, hr⟩ := seeks.eq
    unfold ousts?
    rw [hr]
  constructor
  · intro ha
    rcases hs.poll_cases hc hp quiet with he | ⟨u, reply, hu, heard, ok, he⟩ | hb
    · rw [he] at ha
      exact Or.inr ha
    · obtain rfl : u = t := (Prod.mk.inj (Option.some.inj (hu.symm.trans seeks))).2
      exact Or.inl ⟨hc, seeks, reply, ⟨k, d, hp, heard⟩, ok⟩
    · rw [(hb t).attached, isAttached_quit hs hc] at ha
      exact Or.inr ha
  · rintro (⟨_, _, reply, ⟨k', d', hp', heard⟩, ok⟩ | ha)
    · rw [hp] at hp'
      cases hp'
      rw [poll_of_accepted seeks heard ok]
      exact hs.attached_granted_seeks hc seeks k
    · rcases hs.poll_cases hc hp quiet with he | ⟨u, _, hu, _, _, he⟩ | hb
      · rw [he]
        exact ha
      · obtain rfl : u = t := (Prod.mk.inj (Option.some.inj (hu.symm.trans seeks))).2
        rw [he]
        exact hs.attached_granted_seeks hc seeks k
      · rw [(hb t).attached, isAttached_quit hs hc]
        exact ha

/-- Whoever has just asked for an attach has not heard that it is accepted. -/
theorem Sound.not_accepted_seated (hs : s.Sound) (r : s.Ready c) (m : Message)
    (seeks : c.request.Seeks t) :
    ¬ (s.asked c m).Accepted t (s.seated c) := by
  rintro ⟨_, _, reply, ⟨k, d, hp, heard⟩, _⟩
  obtain ⟨rfl, _⟩ := Point.awaiting.inj hp
  rw [hs.waiting_at_tab r m (Request.tab?_of_handshake? seeks)] at heard
  cases heard

theorem Sound.attached_ask (hs : s.Sound) (r : s.Ready c) (m : Message) (seeks : c.request.Seeks t) :
    (s.ask c m).isAttached t = s.isAttached t := by
  have hasked := hs.asked r m
  have hseated := (hs.waits_seated r m).1
  have hsame : (s.asked c m).isAttached t = s.isAttached t :=
    (Beside.send t (s.enter c) (some c.id) m).attached.trans (Beside.join t s c.request).attached
  rcases ask_cases s c m with ⟨-, he⟩ | ⟨e, -, left⟩
  · have hp := hasked.attached_poll (c := s.seated c) (t := t) hseated rfl seeks
    rw [or_iff_right (hs.not_accepted_seated r m seeks), hsame] at hp
    rw [he]
    exact Bool.eq_iff_iff.mpr hp
  · have hq : (s.refused c m).isAttached t = (s.asked c m).isAttached t :=
      isAttached_quit (c := s.seated c) hasked hseated _
    exact (left.beside (hs.refused r m)).attached.trans (hq.trans hsame)

theorem isAttached_unmark (s : State) (r : Request) : (s.unmark r).isAttached t = s.isAttached t := by
  show (s.unmark r).view.attached t = _
  rw [view_unmark]
  rfl

theorem isAttached_retire (s : State) (c : Call) : (s.retire c).isAttached t = s.isAttached t := by
  show (s.retire c).view.attached t = _
  rw [view_retire, View.retire_eq]
  rfl

/-- An attach that begins attaches nothing yet. -/
theorem Sound.attached_begin (hs : s.Sound) (p : s.Poised c) (seeks : c.request.Seeks t) :
    (s.begin c).isAttached t = s.isAttached t := by
  obtain ⟨l, hr⟩ := seeks.eq
  obtain ⟨x, hsx, _, _, hsame, _, ⟨m, ready, he⟩ | ⟨r, he⟩⟩ := hs.beginAttach_cases p hr
  · unfold begin
    rw [hr]
    dsimp only
    rw [he, hsx.attached_ask ready m seeks]
    exact hsame
  · unfold begin
    rw [hr]
    dsimp only
    rw [he]
    exact (isAttached_retire _ c).trans ((isAttached_unmark x _).trans hsame)

/-! ### When a tab is attached -/

theorem Sound.attached_resume (hs : s.Sound) (hc : c ∈ s.calls) (quiet : s.ousting? c = none) :
    (s.resume c).isAttached t = true ↔ s.Accepted t c ∨ s.isAttached t = true := by
  by_cases seeks : c.request.Seeks t
  · by_cases idle : c.Idle
    · have hnot : ¬ s.Accepted t c := fun h => h.pursues.waits idle
      rw [or_iff_right hnot]
      rcases hs.resume_cases hc with ⟨x, hb, hsx, px, he⟩ | hb | ⟨k, d, hp, _⟩
      · rw [he, hsx.attached_begin px seeks, (hb t).attached]
      · rw [(hb t).attached]
      · exact absurd hp (idle k d)
    · obtain ⟨k, d, hp⟩ := point_of_waits idle
      have he : s.resume c = s.poll c k d := by
        unfold resume
        rw [hp]
      rw [he]
      exact hs.attached_poll hc hp seeks
  · rw [or_iff_right fun h => seeks h.seeks, (hs.beside_resume hc quiet seeks).attached]

theorem Sound.attached_before (hs : s.Sound) {a : Action} {o : Occasion} (h : s.occasion? a = some o) :
    o.before.isAttached t = s.isAttached t := by
  obtain ⟨_, _, _, hv⟩ := hs.view_before h
  exact congrFun (congrArg View.attached hv) t

/-- What goes on with an attach ends nothing. -/
theorem Accepted.quiet (hs : s.Sound) (h : s.Accepted t c) : s.occasion? (.resume c.id) = none := by
  obtain ⟨l, hr⟩ := h.seeks.eq
  obtain ⟨_, ⟨k, d, hp, _⟩, _⟩ := h.heard
  simp only [occasion?, hs.call?_eq h.mem, Option.bind_some, ousting?, hp, ousts?, hr, Option.map_none]

theorem not_grants_of_ne {a : Action} (h : ∀ id, a ≠ .resume id) : ¬ s.Grants t a := by
  rintro ⟨c, _, he⟩
  exact h c.id he

/-- A tab is attached after an action exactly if the action grants its attach, or the tab was attached and
the action ends nothing that reaches it. -/
theorem Sound.attached_act (hs : s.Sound) (a : Action) : (s.act a).isAttached t = true ↔
    s.Grants t a ∨ (s.isAttached t = true ∧ ¬ s.Ends t a) := by
  cases ho : s.occasion? a with
  | some o =>
    have hnot : ¬ s.Grants t a := by
      rintro ⟨c, hc, rfl⟩
      rw [hc.quiet hs] at ho
      cases ho
    have hends : s.Ends t a ↔ o.before.Reaches t o.trigger :=
      ⟨fun ⟨o', ho', hr⟩ => Option.some.inj (ho.symm.trans ho') ▸ hr, fun hr => ⟨o, ho, hr⟩⟩
    have hb : o.before.Sound := BypassFreeMoves.sound (replyFree_before ho).bypassFree hs
    rw [act_of_occasion ho, or_iff_right hnot, hends, ← hs.attached_before ho]
    exact hb.attached_fire o.trigger
  | none =>
    have hends : ¬ s.Ends t a := by
      rintro ⟨o, ho', _⟩
      rw [ho] at ho'
      cases ho'
    rw [and_iff_left hends]
    cases a with
    | resume id =>
      simp only [State.act]
      cases hid : s.call? id with
      | none =>
        refine ⟨Or.inr, fun h => h.elim ?_ fun ha => ha⟩
        rintro ⟨c, hc, he⟩
        cases he
        rw [hs.call?_eq hc.mem] at hid
        cases hid
      | some c =>
        obtain ⟨hc, rfl⟩ := call_of_call? hid
        have quiet : s.ousting? c = none := by simpa only [occasion?, hid, Option.bind_some] using ho
        have hgrants : s.Grants t (.resume c.id) ↔ s.Accepted t c := by
          refine ⟨?_, fun h => ⟨c, h, rfl⟩⟩
          rintro ⟨x, hx, he⟩
          rw [hs.call_eq hc hx.mem (Action.resume.inj he)]
          exact hx
        rw [hgrants]
        exact hs.attached_resume hc quiet
    | cancel id =>
      rw [or_iff_right (not_grants_of_ne fun _ => Action.noConfusion)]
      simp only [State.act, State.cancel]
      split
      · exact Iff.rfl
      · next c hid =>
        obtain ⟨hc, rfl⟩ := call_of_call? hid
        split
        · rw [isAttached_quit hs hc]
        · rw [isAttached_retire]
    | _ =>
      rw [or_iff_right (not_grants_of_ne fun _ => Action.noConfusion),
        (beside_act ho (fun _ => Action.noConfusion) fun _ => Action.noConfusion).attached]

/-! ### A reply that was heard -/

theorem answered_failAll {α : Type} {p : Pending α} {k : Ticket} {v : α}
    (h : p.receiver? k = some (.answered v)) : p.failAll.receiver? k = some (.answered v) := by
  refine (lookup_map_at p.receivers (· ∈ p.slots.flatMap (·.2)) Pending.orphaned k).trans ?_
  rw [show p.receivers.lookup k = _ from h]
  exact ite_self _

theorem heard_of_tabs (tabs : s'.tabs = s.tabs) {reply : DebuggerReply} (h : s.Answered t c reply) :
    s'.Answered t c reply := by
  unfold Answered tabTable tab? at h ⊢
  rw [tabs]
  exact h

theorem tabs_close (s : State) : s.close.1.tabs = s.tabs := by
  unfold State.close
  split
  · split <;> rfl
  · rfl

/-- By an end no reply that was heard is forgotten. -/
theorem heard_perform (d : Duty) {reply : DebuggerReply} (h : s.Answered t c reply) :
    (s.perform d).1.Answered t c reply := by
  cases d with
  | detach u =>
    have hcut : (s.modifyTab u Tab.cutOff).Answered t c reply := by
      obtain ⟨k, d, hp, hr⟩ := h
      refine ⟨k, d, hp, ?_⟩
      unfold tabTable at hr ⊢
      rw [tab?_modifyTab]
      split
      · cases ht : s.tab? t with
        | none =>
          rw [ht] at hr
          exact hr
        | some tab =>
          rw [ht] at hr
          exact answered_failAll hr
      · exact hr
    unfold State.perform
    dsimp only
    split
    · rw [announceDetached_eq]
      exact hcut
    · exact hcut
  | terminate id =>
    rw [registry_terminate]
    exact h
  | closeIfIdle =>
    rw [perform_closeIfIdle]
    split
    · exact h
    · exact heard_of_tabs (tabs_close s) h

theorem heard_unwind (duties : List Duty) {reply : DebuggerReply} (h : s.Answered t c reply) :
    (s.unwind duties).Answered t c reply :=
  unwind_induction (P := fun x _ => x.Answered t c reply) (fun _ d _ hx => heard_perform d hx) s duties h

theorem heard_fire (k : Trigger) {reply : DebuggerReply} (h : s.Answered t c reply) :
    (s.fire k).Answered t c reply := by
  cases k with
  | close => exact heard_unwind _ (heard_of_tabs (tabs_close s) h)
  | detached u => exact heard_unwind _ h
  | terminated id => exact heard_unwind _ h

theorem calls_unwind (s : State) (duties : List Duty) : (s.unwind duties).calls = s.calls :=
  unwind_induction (P := fun x _ => x.calls = s.calls) (fun x d _ hx => (calls_perform x d).trans hx) s
    duties rfl

theorem calls_fire (s : State) (k : Trigger) : (s.fire k).calls = s.calls := by
  cases k with
  | close => exact (calls_unwind _ _).trans (calls_close s)
  | detached u => exact calls_unwind s _
  | terminated id => exact calls_unwind s _

/-- Whatever happens, a call that has heard that its tab is accepted still has it before it until it goes
on. -/
theorem Accepted.act (hs : s.Sound) (h : s.Accepted t c) {a : Action} (resumed : a ≠ .resume c.id)
    (cancelled : a ≠ .cancel c.id) : (s.act a).Accepted t c := by
  obtain ⟨reply, heard, ok⟩ := h.heard
  have hp := h.pursues
  cases ho : s.occasion? a with
  | none =>
    have hb := hs.beside_act_of_pursues ho h.mem hp resumed cancelled
    exact ⟨(hb.pursuers c hp).mpr h.mem, h.seeks, reply, hb.heard c h.mem hp reply heard, ok⟩
  | some o =>
    have hb : Beside t s o.before := hs.beside_before ho
    rw [act_of_occasion ho]
    refine ⟨?_, h.seeks, reply, heard_fire o.trigger (hb.heard c h.mem hp reply heard), ok⟩
    show c ∈ (o.before.fire o.trigger).calls
    rw [calls_fire]
    exact (hb.pursuers c hp).mpr h.mem

theorem Accepted.run (hs : s.Sound) (h : s.Accepted t c) (actions : List Action)
    (others : ∀ a ∈ actions, a ≠ .resume c.id ∧ a ≠ .cancel c.id) : (s.run actions).Accepted t c := by
  induction actions generalizing s with
  | nil => exact h
  | cons a rest ih =>
    obtain ⟨resumed, cancelled⟩ := others a (List.mem_cons_self ..)
    exact ih (hs.act a) (h.act hs resumed cancelled) fun b hb => others b (List.mem_cons_of_mem _ hb)

/-- In every history a tab is attached exactly since an attach of it was granted, as long as nothing ended
that reached it. And an attach is granted when its call goes on after it heard that the tab is accepted,
whatever has ended between the reply and that. -/
theorem attached_exactly_since_grant (config : Config) (restartable : Bool) (rules : List (String × Json))
    (actions : List Action) (t : Instance) :
    let start := initial config restartable rules
    ((start.run actions).isAttached t = true ↔
        Since (fun s a => ¬ s.Ends t a) (fun s a => s.Grants t a) start actions) ∧
      ∀ c, (start.run actions).Accepted t c → ∀ later,
        (∀ a ∈ later, a ≠ .resume c.id ∧ a ≠ .cancel c.id) →
          ((start.run (actions ++ later)).act (.resume c.id)).isAttached t = true := by
  intro start
  have hs : start.Sound := sound_initial config restartable rules
  refine ⟨?_, fun c hc later others => ?_⟩
  · refine since_iff (P := fun s => s.isAttached t = true) ?_ (fun before a => ?_) actions
    · simp [start, initial, isAttached, tab?]
    · exact (hs.run before).attached_act a
  · rw [run_append]
    have hlater := hc.run (hs.run actions) later others
    exact (((hs.run actions).run later).attached_act _).mpr (Or.inl ⟨c, hlater, rfl⟩)

/-- A history in which the reply to an attach has come in and its call is yet to go on. -/
def accepting : List Action :=
  [.start 0 .connect, .resume 0, .receive, .resume 0, .start 1 .tabs, .resume 1, .receive, .resume 1,
    .start 2 (.attach 0 { name := "l" }), .resume 2, .receive]

/-- The attach that waits there. -/
def acceptedCall : Call := ⟨2, .attach 0 { name := "l" }, .awaiting 1 3000⟩

/-- The server reports that the tab is closed. -/
def closedReport : Message := .forTab .v8Debugger 7 (.ofFields [("command", .str "closed")])

theorem accepted_accepting : ((initial {} false obliging).run accepting).Accepted 0 acceptedCall where
  mem := by decide +kernel
  seeks := rfl
  heard := ⟨_, ⟨1, 3000, rfl, rfl⟩, rfl⟩

/-- The connection closes before the call goes on: the tab comes to be attached without a connection. -/
theorem attached_after_connection_closed :
    let start := initial {} false obliging
    (start.run accepting).Accepted 0 acceptedCall ∧
      (start.run (accepting ++ [.close])).connection.connected = false ∧
      ((start.run (accepting ++ [.close])).act (.resume 2)).isAttached 0 = true := by
  intro start
  refine ⟨accepted_accepting, by decide +kernel, ?_⟩
  refine (attached_exactly_since_grant {} false obliging accepting 0).2 acceptedCall accepted_accepting
    [.close] fun a ha => ?_
  rw [List.mem_singleton.mp ha]
  exact ⟨Action.noConfusion, Action.noConfusion⟩

/-- A tab that is reported as closed between the reply to its attach and the going on of the call is
attached in the end, with nothing left to go on. -/
theorem closed_report_before_grant_is_lost :
    let told := (initial {} false obliging).run accepting
    let s := (told.act (.deliver closedReport)).act (.resume 2)
    told.Accepted 0 acceptedCall ∧ told.Ends 0 (.deliver closedReport) ∧ s.Settled ∧
      s.isAttached 0 = true :=
  ⟨accepted_accepting, ⟨_, rfl, Or.inl rfl⟩, by decide +kernel, by decide +kernel⟩

end State
end RemoteDebug.Engine
