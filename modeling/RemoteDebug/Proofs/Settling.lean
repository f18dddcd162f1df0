import RemoteDebug.Proofs.Incident

/-! Settling comes to an end.

Each action of the order that `settle` follows leaves less to do: a call comes nearer
to its end, or a message is delivered. What is left to do in the beginning is
bounded by the calls and the messages, so the session settles: no call can go on,
and no message waits. -/
namespace RemoteDebug.Engine
open Protocol Wire

namespace State

variable {s s' : State} {c : Call} {d : Desk} {command : String}

/-! ### Who can go on -/

theorem isSome_waitEnd {α : Type} (s : State) (p : Pending α) (r : Request) (k : Ticket) (dl : Nat) :
    (s.waitEnd? p r k dl).isSome = true ↔
      dl ≤ s.clock ∨ ∃ x, p.blank.receiver? k = some x ∧ x ≠ .waiting := by
  unfold waitEnd?
  rw [Pending.receiver?_blank]
  split
  · next v h =>
    rw [h]
    exact ⟨fun _ => Or.inr ⟨.answered (), rfl, fun h => by cases h⟩, fun _ => rfl⟩
  · next h =>
    rw [h]
    exact ⟨fun _ => Or.inr ⟨.failed, rfl, fun h => by cases h⟩, fun _ => rfl⟩
  · next h₁ h₂ =>
    have silent : ¬ ∃ x, (p.receiver? k).map Receiver.blank = some x ∧ x ≠ .waiting := by
      rintro ⟨x, hx, hne⟩
      obtain ⟨y, hy, rfl⟩ := Option.map_eq_some_iff.mp hx
      cases y with
      | waiting => exact hne rfl
      | answered v => exact h₁ v hy
      | failed => exact h₂ hy
    split
    · next hd => exact ⟨fun _ => Or.inl hd, fun _ => rfl⟩
    · next hd =>
      refine ⟨fun h => ?_, fun h => absurd h (not_or.mpr ⟨hd, silent⟩)⟩
      cases h

/-- A call goes on if it is new, holds what it was queued for, or hears the end of its wait. -/
theorem Sound.runnable_iff (hs : s.Sound) (hc : c ∈ s.calls) : s.runnable c = true ↔
    match c.point with
    | .fresh => True
    | .queued => s.view.Holds c
    | .awaiting k dl => dl ≤ s.clock ∨
        ∃ x, (s.view.board c.request.desk).receiver? k = some x ∧ x ≠ .waiting := by
  unfold runnable
  cases c.point with
  | fresh => exact ⟨fun _ => trivial, fun _ => rfl⟩
  | queued => exact hs.holds hc
  | awaiting k dl =>
    show _ ↔ dl ≤ s.clock ∨ ∃ x, (s.board c.request.desk).receiver? k = some x ∧ x ≠ .waiting
    rw [board_desk]
    cases c.request.tab? with
    | some t => exact isSome_waitEnd s _ _ k dl
    | none => exact isSome_waitEnd s _ _ k dl

theorem Sound.runnable_of_heard (hs : s.Sound) {k : Ticket} {x : Receiver Unit}
    (hw : s.view.Waits c d k) (hr : (s.view.board d).receiver? k = some x) (hx : x ≠ .waiting) :
    s.runnable c = true := by
  obtain ⟨hc, rfl, dl, hp⟩ := hw
  rw [hs.runnable_iff hc, hp]
  exact Or.inr ⟨x, hr, hx⟩

/-- Of calls none of which can go on, a reply lets the one go on that it is handed to. -/
theorem Answer.roused (h : Answer s d command s') (hs : s.Sound)
    (still : ∀ x ∈ s.calls, s.runnable x = false) (hc : c ∈ s'.calls)
    (hr : s'.runnable c = true) :
    ∃ k, s.view.Waits c d k ∧ ((s.view.board d).reached command).head? = some k := by
  have hc' : c ∈ s.calls := h.calls ▸ hc
  have hold : ¬ s.runnable c = true := by
    rw [still c hc']
    exact Bool.false_ne_true
  have hv := h.view
  rw [(h.sound hs).runnable_iff hc] at hr
  rw [hs.runnable_iff hc'] at hold
  cases hp : c.point with
  | fresh =>
    rw [hp] at hold
    exact absurd trivial hold
  | queued =>
    rw [hp] at hold hr
    rw [hv] at hr
    exact absurd hr hold
  | awaiting k dl =>
    rw [hp] at hold hr
    dsimp only at hold hr
    rw [hv, h.clock, View.board_setBoard] at hr
    rcases hr with hr | ⟨x, hx, hne⟩
    · exact absurd (Or.inl hr) hold
    · split at hx
      · next hd =>
        rw [Pending.receiver?_complete] at hx
        split at hx
        · next hk => exact ⟨k, ⟨hc', hd, dl, hp⟩, hk⟩
        · rw [← hd] at hx
          exact absurd (Or.inr ⟨x, hx, hne⟩) hold
      · exact absurd (Or.inr ⟨x, hx, hne⟩) hold

/-- The one that the reply is handed to is the only one that it lets go on. -/
theorem Answer.only (h : Answer s d command s') (hs : s.Sound)
    (still : ∀ x ∈ s.calls, s.runnable x = false) {k : Ticket} {r : Receiver Unit}
    (hw : s'.view.Waits c d k) (hr : (s'.view.board d).receiver? k = some r) (heard : r ≠ .waiting) :
    ∀ x ∈ s'.calls, s'.runnable x = true → x = c := by
  intro x hx hgo
  obtain ⟨kx, hxw, hxh⟩ := h.roused hs still hx hgo
  obtain ⟨kc, hcw, hch⟩ := h.roused hs still hw.1 ((h.sound hs).runnable_of_heard hw hr heard)
  obtain rfl : kx = kc := Option.some.inj (hxh.symm.trans hch)
  exact View.Sound.apart hs x c d kx hxw hcw

/-! ### Less is left to do -/

theorem Answer.work (h : Answer s d command s') : s'.work = s.work := by
  unfold State.work
  rw [h.view]
  cases h <;> rfl

theorem work_close_le (s : State) : s.close.1.work ≤ s.work := by
  have hl : s.close.1.view.load = s.view.load := by
    unfold View.load
    rw [show s.close.1.view.calls = s.view.calls from calls_close s]
  unfold State.work
  rw [hl]
  refine Nat.add_le_add_left ?_ _
  unfold close
  split
  · split <;> exact Nat.zero_le _
  · exact Nat.le_refl _

theorem work_perform_le (s : State) (d : Duty) : (s.perform d).1.work ≤ s.work := by
  cases d with
  | detach t =>
    have hv := view_detach s t
    unfold State.work
    rw [hv]
    refine Nat.add_le_add_left (Nat.le_of_eq (congrArg List.length ?_)) _
    unfold perform
    dsimp only
    split
    · rw [announceDetached_eq]
      rfl
    · rfl
  | terminate id =>
    rw [registry_terminate]
    exact Nat.le_refl _
  | closeIfIdle =>
    rw [perform_closeIfIdle]
    split
    · exact Nat.le_refl _
    · exact work_close_le s

theorem work_unwind_le (s : State) (duties : List Duty) : (s.unwind duties).work ≤ s.work :=
  unwind_induction (P := fun x _ => x.work ≤ s.work)
    (fun x d _ h => Nat.le_trans (work_perform_le x d) h) s duties (Nat.le_refl _)

theorem work_fire_le (s : State) (k : Trigger) : (s.fire k).work ≤ s.work := by
  cases k with
  | close => exact Nat.le_trans (work_unwind_le _ _) (work_close_le s)
  | detached t => exact work_unwind_le s _
  | terminated id => exact work_unwind_le s _

theorem Sound.work_resume (hs : s.Sound) (hc : c ∈ s.calls) (hr : s.runnable c = true) :
    (s.resume c).work < s.work := by
  cases ho : s.ousting? c with
  | none => exact (hs.advance_resume hc hr (ousts_of_ousting ho)).2
  | some o =>
    obtain ⟨k, dl, t, _, _, rfl⟩ := before_of_ousting ho
    rw [resume_of_ousting ho]
    exact Nat.lt_of_le_of_lt (work_fire_le _ _) (hs.work_quit hc k)

theorem Brings.work {reply : Option String} (h : Brings s d reply s') : s'.work = s.work := by
  obtain ⟨s₁, es, _, rfl, hr⟩ := h
  change s₁.work = s.work
  cases reply with
  | none => rw [hr]
  | some command => exact Answer.work hr

theorem Sound.work_deliver_le (hs : s.Sound) (m : Message) : (s.deliver m).work ≤ s.work := by
  cases ho : s.delivering? m with
  | some o =>
    obtain ⟨t, _, rfl⟩ := before_of_delivering ho
    rw [deliver_of_delivering m ho]
    refine Nat.le_trans (work_fire_le _ _) ?_
    rw [tell_eq]
    exact Nat.le_refl _
  | none =>
    by_cases hl : s.listens = true
    · rcases hs.brings_deliver hl ho with ⟨d, _, hb, _⟩ | ⟨_, n, he⟩
      · exact Nat.le_of_eq hb.work
      · rw [he, logged_eq]
        exact Nat.le_refl _
    · refine Nat.le_of_eq ?_
      unfold deliver
      rw [if_neg hl]

/-! ### The order of `settle` -/

theorem Sound.call?_eq (hs : s.Sound) (hc : c ∈ s.calls) : s.call? c.id = some c := by
  cases h : s.call? c.id with
  | none =>
    exact absurd (beq_self_eq_true c.id) (List.find?_eq_none.mp h c hc)
  | some x =>
    obtain ⟨hx, hid⟩ := call_of_call? h
    rw [View.Sound.call_eq hs hx hc hid]

/-- A call of the session, or of the separate handler, has heard a response. -/
def Informed (s : State) (c : Call) (response : ServiceResponse) : Prop :=
  ∃ k d, c.point = .awaiting k d ∧ (s.serviceTable c.request).receiver? k = some (.answered response)

/-- Whoever has heard a response leaves and ends with it. -/
theorem Sound.act_of_informed (hs : s.Sound) (hc : c ∈ s.calls) (service : c.request.tab? = none)
    {response : ServiceResponse} (informed : s.Informed c response) :
    ∃ k d, c.point = .awaiting k d ∧
      s.act (.resume c.id) = (s.quit c k).serviceEnds c (.ok response) := by
  obtain ⟨k, d, hp, hheard⟩ := informed
  have hend : s.waitEnd? (s.serviceTable c.request) c.request k d = some (.ok response) :=
    waitEnd?_ok.mpr hheard
  refine ⟨k, d, hp, ?_⟩
  simp only [State.act, hs.call?_eq hc, resume, hp]
  rw [poll_of_free service, hend]
  rfl

/-- The next action lets a call go on that can, or delivers a message when none can. -/
theorem next?_cases {a : Action} (h : s.next? = some a) :
    (∃ c ∈ s.calls, s.runnable c = true ∧ a = .resume c.id) ∨
      ((∀ c ∈ s.calls, s.runnable c = false) ∧ a = .receive ∧ s.connection.inbound ≠ []) := by
  unfold next? at h
  split at h
  · next id hmin =>
    obtain ⟨c, hc, hid⟩ := List.mem_map.mp (List.min?_mem hmin)
    obtain ⟨hc, hr⟩ := List.mem_filter.mp hc
    refine Or.inl ⟨c, hc, hr, ?_⟩
    rw [hid]
    exact (Option.some.inj h).symm
  · next hmin =>
    have hnone := List.map_eq_nil_iff.mp (List.min?_eq_none_iff.mp hmin)
    refine Or.inr ⟨fun c hc => Bool.eq_false_iff.mpr (List.filter_eq_nil_iff.mp hnone c hc), ?_⟩
    split at h
    · cases h
    · next hi =>
      exact ⟨(Option.some.inj h).symm, fun hn => hi (by rw [hn]; rfl)⟩

/-- A session has settled when no call can go on and no message waits. -/
theorem settled_iff : s.Settled ↔
    (∀ c ∈ s.calls, s.runnable c = false) ∧ s.connection.inbound = [] := by
  constructor
  · intro h
    unfold Settled next? at h
    split at h
    · cases h
    · next hmin =>
      have hnone := List.map_eq_nil_iff.mp (List.min?_eq_none_iff.mp hmin)
      refine ⟨fun c hc => Bool.eq_false_iff.mpr (List.filter_eq_nil_iff.mp hnone c hc), ?_⟩
      split at h
      · next hi => exact List.isEmpty_iff.mp hi
      · cases h
  · rintro ⟨still, hi⟩
    have hnone : s.calls.filter s.runnable = [] :=
      List.filter_eq_nil_iff.mpr fun c hc => Bool.eq_false_iff.mp (still c hc)
    unfold Settled next?
    rw [hnone, hi]
    rfl

theorem Sound.work_next (hs : s.Sound) {a : Action} (h : s.next? = some a) :
    (s.act a).work < s.work := by
  rcases next?_cases h with ⟨c, hc, hr, rfl⟩ | ⟨_, rfl, hi⟩
  · simp only [State.act, hs.call?_eq hc]
    exact hs.work_resume hc hr
  · obtain ⟨m, rest, hm⟩ := List.exists_cons_of_ne_nil hi
    simp only [State.act, receive, hm]
    have hp : (s.popped rest).work < s.work := by
      unfold State.work
      rw [hm]
      exact Nat.lt_succ_self _
    exact Nat.lt_of_le_of_lt (Sound.work_deliver_le (s := s.popped rest) hs m) hp

/-- What each action of the order keeps holds when the session has settled. -/
theorem settleIn_induction {P : State → Prop}
    (step : ∀ s a, s.Sound → P s → s.next? = some a → P (s.act a)) (fuel : Nat) (hs : s.Sound)
    (h : P s) : P (settleIn fuel s) := by
  induction fuel generalizing s with
  | zero => exact h
  | succ fuel ih =>
    unfold settleIn
    split
    · next a ha => exact ih (hs.act a) (step s a hs h ha)
    · exact h

theorem Sound.settled_settleIn (hs : s.Sound) {fuel : Nat} (enough : s.work ≤ fuel) :
    (settleIn fuel s).Settled := by
  induction fuel generalizing s with
  | zero =>
    -- nothing is left to do
    show s.next? = none
    cases h : s.next? with
    | none => rfl
    | some a => exact absurd (hs.work_next h) (Nat.not_lt_of_le (Nat.le_trans enough (Nat.zero_le _)))
  | succ fuel ih =>
    unfold settleIn
    split
    · next a ha => exact ih (hs.act a) (Nat.le_of_lt_succ (Nat.lt_of_lt_of_le (hs.work_next ha) enough))
    · next h => exact h

theorem work_le (s : State) : s.work ≤ 4 * s.calls.length + s.connection.inbound.length :=
  Nat.add_le_add_right s.view.load_le _

/-- Settling goes on until nothing can happen any more. -/
theorem Sound.settled_settle (hs : s.Sound) : s.settle.Settled := hs.settled_settleIn (work_le s)

end State
end RemoteDebug.Engine
