import RemoteDebug.Proofs.Beside

/-! Tabs that are being attached.

A tab is marked as attaching exactly while a call waits for the reply to an attach of it: the call
marks its tab before it asks, and takes the mark away when it stops waiting. And while the reply to
a detach is still to come, the tab is attached. So a tab that is not live has no exchange under way
that hears nothing yet. -/
namespace RemoteDebug.Engine
open Protocol Wire

namespace State

variable {s s' : State} {c : Call} {t : Instance}

/-- A tab is marked as attaching exactly if an attach of it is awaited. -/
def Candid (s : State) (t : Instance) : Prop := s.isAttaching t = true ↔ s.Pursued t

theorem Beside.candid (h : Beside t s s') (hc : s.Candid t) : s'.Candid t := by
  unfold Candid
  rw [h.attaching, h.pursued]
  exact hc

theorem candid_of_eq (calls : s'.calls = s.calls) (attaching : s'.isAttaching t = s.isAttaching t)
    (h : s.Candid t) : s'.Candid t := by
  unfold Candid Pursued
  rw [calls, attaching]
  exact h

/-! ### The tab of an attach -/

theorem isAttaching_unmark (s : State) {r : Request} (seeks : r.Seeks t) :
    (s.unmark r).isAttaching t = false := by
  obtain ⟨l, rfl⟩ := seeks.eq
  show (s.modifyTab t fun tab => { tab with attaching := false }).isAttaching t = false
  unfold isAttaching
  rw [tab?_modifyTab, if_pos rfl]
  cases s.tab? t <;> rfl

theorem isAttaching_retire (s : State) (c : Call) : (s.retire c).isAttaching t = s.isAttaching t :=
  (Beside.changeLock t { s with calls := s.calls.filter (·.id != c.id) } c.request _).attaching

/-- A tab that is not marked and that the only call for it has left is not pursued either. -/
theorem candid_of_left (hs : s.Sound) (seeks : c.request.Seeks t) (hc : c ∈ s.calls)
    (holds : s.view.Holds c) (calls : ∀ x ∈ s'.calls, x ∈ s.calls ∧ x.id ≠ c.id)
    (unmarked : s'.isAttaching t = false) : s'.Candid t := by
  unfold Candid
  rw [unmarked]
  refine ⟨fun h => absurd h Bool.false_ne_true, ?_⟩
  rintro ⟨x, hx, hp⟩
  obtain ⟨hx, hne⟩ := calls x hx
  exact absurd (congrArg Call.id (hs.pursuer_eq hc hx seeks holds hp)) hne

theorem Sound.candid_quit (hs : s.Sound) {k : Ticket} {d : Nat} (hc : c ∈ s.calls)
    (hp : c.point = .awaiting k d) (seeks : c.request.Seeks t) : (s.quit c k).Candid t := by
  refine candid_of_left hs seeks hc (hs.holder c _ k (waits_of_point hc hp)) (fun x hx => ?_) ?_
  · have hx' : x ∈ (s.quit c k).view.calls := hx
    rw [view_quit s c k (hs.hasTab hc)] at hx'
    exact View.mem_retire.mp hx'
  · unfold State.quit
    rw [isAttaching_retire]
    exact isAttaching_unmark _ seeks

theorem Sound.candid_poll (hs : s.Sound) {k : Ticket} {d : Nat} (hc : c ∈ s.calls)
    (hp : c.point = .awaiting k d) (quiet : s.ousts? c k = none) (h : s.Candid t) :
    (s.poll c k d).Candid t := by
  by_cases seeks : c.request.Seeks t
  · rcases hs.poll_cases hc hp quiet with he | ⟨u, _, _, _, _, he⟩ | hb
    · rw [he]
      exact h
    · rw [he]
      refine candid_of_eq (s := s.quit c k) rfl ?_ (hs.candid_quit hc hp seeks)
      exact isAttaching_modifyTab (s.quit c k) u (fun tab => { tab with attached := true }) fun _ _ => rfl
    · exact (hb t).candid (hs.candid_quit hc hp seeks)
  · exact (hs.beside_poll hc hp quiet seeks).candid h

/-- A tab that is marked is pursued once its attach is asked for. -/
theorem Sound.candid_asked (hs : s.Sound) (r : s.Ready c) (m : Message) (seeks : c.request.Seeks t)
    (marked : s.isAttaching t = true) : (s.asked c m).Candid t := by
  have hsame : (s.asked c m).isAttaching t = s.isAttaching t :=
    (Beside.send t (s.enter c) (some c.id) m).attaching.trans (Beside.join t s c.request).attaching
  refine ⟨fun _ => ⟨s.seated c, (hs.waits_seated r m).1, seeks, fun idle => ?_⟩, fun _ => ?_⟩
  · exact idle _ _ rfl
  · rw [hsame]
    exact marked

theorem Sound.candid_ask (hs : s.Sound) (r : s.Ready c) (m : Message) (seeks : c.request.Seeks t)
    (marked : s.isAttaching t = true) : (s.ask c m).Candid t := by
  have hasked := hs.asked r m
  have hseated := (hs.waits_seated r m).1
  have ha := hs.candid_asked r m seeks marked
  rcases ask_cases s c m with ⟨-, he⟩ | ⟨e, -, left⟩
  · rw [he]
    exact hasked.candid_poll (c := s.seated c) hseated rfl (hs.ousts_seated r m) ha
  · have hq : (s.refused c m).Candid t := hasked.candid_quit (c := s.seated c) hseated rfl seeks
    exact (left.beside (hs.refused r m)).candid hq

theorem Sound.candid_begin (hs : s.Sound) (p : s.Poised c) (h : s.Candid t) : (s.begin c).Candid t := by
  by_cases seeks : c.request.Seeks t
  · obtain ⟨l, hr⟩ := seeks.eq
    obtain ⟨x, hsx, px, marked, _, _, ⟨m, ready, he⟩ | ⟨r, he⟩⟩ := hs.beginAttach_cases p hr
    · unfold begin
      rw [hr]
      dsimp only
      rw [he]
      exact hsx.candid_ask ready m seeks marked
    · unfold begin
      rw [hr]
      dsimp only
      rw [he]
      have hsu := (Change.unmarked c.request).sound hsx
      have pu := px.unmarked c.request
      refine (Beside.report t _ c r).candid (candid_of_left hsu seeks pu.mem pu.holds (fun y hy => ?_) ?_)
      · have hy' : y ∈ ((x.unmark c.request).retire c).view.calls := hy
        rw [view_retire] at hy'
        exact View.mem_retire.mp hy'
      · rw [isAttaching_retire]
        exact isAttaching_unmark x seeks
  · exact (hs.beside_begin p seeks).candid h

theorem Sound.candid_resume (hs : s.Sound) (hc : c ∈ s.calls) (quiet : s.ousting? c = none)
    (h : s.Candid t) : (s.resume c).Candid t := by
  rcases hs.resume_cases hc with ⟨x, hb, hsx, px, he⟩ | hb | ⟨k, d, hp, he⟩
  · rw [he]
    exact hsx.candid_begin px ((hb t).candid h)
  · exact (hb t).candid h
  · rw [he]
    exact hs.candid_poll hc hp (ousts_of_ousting quiet k d hp) h

theorem Sound.candid_cancel (hs : s.Sound) (id : CallId) (h : s.Candid t) : (s.cancel id).Candid t := by
  unfold State.cancel
  split
  · exact h
  · next c hid =>
    obtain ⟨hc, rfl⟩ := call_of_call? hid
    split
    · next k d hp =>
      by_cases seeks : c.request.Seeks t
      · exact hs.candid_quit hc hp seeks
      · exact (hs.beside_quit hc hp seeks).candid h
    · next hidle =>
      refine (Beside.retire s c fun x hx hid' hp => ?_).candid h
      rw [hs.call_eq hx hc hid'] at hp
      exact hp.waits hidle

/-! ### Ends -/

theorem isAttaching_close (s : State) : s.close.1.isAttaching t = s.isAttaching t := by
  unfold close
  split
  · split <;> rfl
  · rfl

theorem isAttaching_perform (s : State) (d : Duty) :
    (s.perform d).1.isAttaching t = s.isAttaching t := by
  cases d with
  | detach u =>
    have hcut : (s.modifyTab u Tab.cutOff).isAttaching t = s.isAttaching t :=
      isAttaching_modifyTab s u _ fun _ _ => rfl
    unfold perform
    dsimp only
    split
    · rw [announceDetached_eq]
      exact hcut
    · exact hcut
  | terminate id =>
    rw [registry_terminate]
    rfl
  | closeIfIdle =>
    rw [perform_closeIfIdle]
    split
    · rfl
    · exact isAttaching_close s

theorem candid_perform (d : Duty) (h : s.Candid t) : (s.perform d).1.Candid t :=
  candid_of_eq (calls_perform s d) (isAttaching_perform s d) h

theorem candid_unwind (duties : List Duty) (h : s.Candid t) : (s.unwind duties).Candid t :=
  unwind_induction (P := fun x _ => x.Candid t) (fun _ d _ hx => candid_perform d hx) s duties h

theorem candid_fire (k : Trigger) (h : s.Candid t) : (s.fire k).Candid t := by
  cases k with
  | close => exact candid_unwind _ (candid_of_eq (calls_close s) (isAttaching_close s) h)
  | detached u => exact candid_unwind _ h
  | terminated id => exact candid_unwind _ h

theorem Sound.candid_act (hs : s.Sound) (a : Action) (h : s.Candid t) : (s.act a).Candid t := by
  cases ho : s.occasion? a with
  | some o =>
    rw [act_of_occasion ho]
    exact (Beside.note t _ _).candid (candid_fire _ ((hs.beside_before ho).candid h))
  | none =>
    cases a with
    | resume id =>
      simp only [State.act]
      cases hid : s.call? id with
      | none => exact h
      | some c =>
        refine hs.candid_resume (call_of_call? hid).1 ?_ h
        simpa only [occasion?, hid, Option.bind_some] using ho
    | cancel id => exact hs.candid_cancel id h
    | _ =>
      exact (beside_act ho (fun _ => Action.noConfusion) fun _ => Action.noConfusion).candid h

/-- In every history a tab is marked as attaching exactly while an attach of it is awaited. -/
theorem Sound.candid_run (hs : s.Sound) (actions : List Action) (h : s.Candid t) :
    (s.run actions).Candid t := by
  induction actions generalizing s with
  | nil => exact h
  | cons a rest ih => exact ih (hs.act a) (hs.candid_act a h)

theorem candid_initial (config : Config) (restartable : Bool) (rules : List (String × Json))
    (t : Instance) : (initial config restartable rules).Candid t :=
  ⟨fun h => by simp [initial, isAttaching, tab?] at h, fun ⟨_, hx, _⟩ => by cases hx⟩

/-! ### The tab of a detach -/

/-- While the reply to a detach of a tab is still to come, the tab is attached. -/
def Tied (s : State) (t : Instance) : Prop := s.view.Awaits .detach t .waiting → s.isAttached t = true

/-- An attachment does not end by itself. -/
theorem ReplyFreeMove.keeps_attached (hu : ReplyFreeMove s s') (hs : s.Sound) (ha : s.isAttached t = true) :
    s'.isAttached t = true := by
  cases hu with
  | change hc =>
    rcases hc.still_or_granted hs with ⟨_, _, _, h⟩ | ⟨c, u, l, k, d, v, mem, about, _, _, rfl⟩
    · exact (congrFun h t).trans ha
    · rw [attached_granted hs mem about]
      split
      · rfl
      · exact ha
  | tweaked u f keeps =>
    exact (congrFun (congrArg View.attached (view_modifyTab_keeps s u keeps)) t).trans ha
  | _ => exact ha

theorem ReplyFreeMove.tied (hu : ReplyFreeMove s s') (hs : s.Sound) (h : s.Tied t) : s'.Tied t := by
  rintro ⟨x, k, hw, hx, hr⟩
  refine hu.keeps_attached hs ?_
  rcases hu.waits hs hw with hw | ⟨c, m, ready, _, rfl, rfl, _⟩
  · rcases hu.receiver hs hr with hr | ⟨_, hnone⟩ | hr
    · exact h ⟨x, k, hw, hx, hr⟩
    · obtain ⟨r, hr', _⟩ := hs.seat x _ k hw
      rw [hnone] at hr'
      cases hr'
    · cases hr
  · -- only an attached tab is asked to detach
    have hf := ready.fits
    change c.request.handshake? = some (.detach, t) at hx
    cases hq : c.request with
    | detach u =>
      rw [hq] at hx hf
      cases hx
      exact hf
    | _ =>
      rw [hq] at hx
      cases hx

theorem Answer.tied {d : Desk} {command : String} (ha : Answer s d command s') (h : s.Tied t) :
    s'.Tied t := by
  intro hw
  rw [ha.attached]
  rcases ha.awaits hw with hw | ⟨hr, _⟩
  · exact h hw
  · cases hr

theorem Sound.tied_close (hs : s.Sound) (h : s.Tied t) : s.close.1.Tied t := by
  intro hw
  rw [isAttached_close]
  rcases hs.awaits_close hw with hw | hr
  · exact h hw
  · cases hr

theorem Sound.tied_perform (hs : s.Sound) (d : Duty) (h : s.Tied t) : (s.perform d).1.Tied t := by
  intro hw
  rcases hs.awaits_perform d hw with ⟨hw, hne⟩ | hr
  · have ha := h hw
    cases d with
    | detach u =>
      rw [attached_detach, if_neg]
      · exact ha
      · rintro rfl
        exact hne rfl rfl
    | terminate id =>
      rw [registry_terminate]
      exact ha
    | closeIfIdle =>
      rw [perform_closeIfIdle]
      split
      · exact ha
      · rw [isAttached_close]
        exact ha
  · cases hr

theorem EndFreeMove.tied (hc : EndFreeMove s s') (hs : s.Sound) (h : s.Tied t) : s'.Tied t := by
  cases hc with
  | bypassFree ho =>
    cases ho with
    | replyFree hu => exact hu.tied hs h
    | answer ha routed => exact ha.tied h
  | handed ha => exact ha.tied h
  | dropped => exact h

theorem Moves.tied (hm : Moves s s') (hs : s.Sound) (h : s.Tied t) : s'.Tied t := by
  induction hm with
  | refl => exact h
  | tail steps step ih =>
    have hs' := Moves.sound steps hs
    cases step with
    | endFree hc => exact hc.tied hs' ih
    | performed d => exact hs'.tied_perform d ih
    | closed => exact hs'.tied_close ih

theorem Sound.tied_run (hs : s.Sound) (actions : List Action) (h : s.Tied t) :
    (s.run actions).Tied t := by
  induction actions generalizing s with
  | nil => exact h
  | cons a rest ih => exact ih (hs.act a) ((hs.moves_act a).tied hs h)

theorem tied_initial (config : Config) (restartable : Bool) (rules : List (String × Json))
    (t : Instance) : (initial config restartable rules).Tied t :=
  fun ⟨_, _, hw, _⟩ => by cases hw.1

/-- No exchange with a tab that is not live still waits for its reply. -/
theorem unawaited_of_not_live (hc : s.Candid t) (ht : s.Tied t) (hl : s.isLive t = false)
    (h : Handshake) :
    ¬ s.view.Awaits h t .waiting := by
  rw [isLive_eq, Bool.or_eq_false_iff] at hl
  intro hw
  cases h with
  | attach =>
    obtain ⟨x, k, ⟨hx, _, d, hp⟩, hseeks, _⟩ := hw
    have hm := hc.mpr ⟨x, hx, hseeks, fun idle => idle k d hp⟩
    rw [hl.2] at hm
    cases hm
  | detach =>
    have ha := ht hw
    rw [hl.1] at ha
    cases ha

end State
end RemoteDebug.Engine
