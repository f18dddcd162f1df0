import RemoteDebug.Proofs.Incident

/-! Nothing is left behind.

A call that stops waiting takes its slot out of the table, and a call that is gone has left the queue
that it stood in. So every slot of a table belongs to a receiver that still waits, and every place in a
queue for a tab or for the connection belongs to a call that is there and needs it. -/
namespace RemoteDebug.Engine
open Protocol Wire

/-- Every slot has a receiver that waits. -/
def Pending.Tidy {α : Type} (p : Pending α) : Prop := ∀ c, ∀ k ∈ p.queue c, p.receiver? k = some .waiting

namespace Pending

variable {α : Type} {p : Pending α}

theorem Tidy.register (h : p.Tidy) (sound : p.Sound) (c : String) : (p.register c).2.Tidy := by
  intro c' k hk
  rw [receiver?_register _ _ _ sound.next_free]
  rw [queue_register] at hk
  split at hk
  · next hc =>
    split
    · rfl
    · next hne =>
      rcases List.mem_append.mp hk with hk | hk
      · exact h c k hk
      · exact absurd (List.mem_singleton.mp hk) hne
  · split
    · rfl
    · exact h c' k hk

/-- The slot that is answered goes, and with it those before it. -/
theorem Tidy.complete (h : p.Tidy) (sound : p.Sound) (c : String) (v : α) : (p.complete c v).2.Tidy := by
  intro c' k hk
  rw [queue_complete] at hk
  have hqueued : k ∈ p.queue c' := by
    split at hk
    · next hc => exact hc ▸ (reached_suffix p c).subset (List.mem_of_mem_tail hk)
    · exact hk
  rw [receiver?_complete, if_neg]
  · exact h c' k hqueued
  -- the ticket that is answered is not in what is left
  intro hhead
  have hreached : k ∈ p.reached c := List.mem_of_mem_head? hhead
  obtain rfl : c' = c := sound.unique c' c k hqueued ((reached_suffix p c).subset hreached)
  rw [if_pos rfl] at hk
  have hsorted := (sound.sorted c').sublist (reached_suffix p c').sublist
  cases hr : p.reached c' with
  | nil =>
    rw [hr] at hhead
    cases hhead
  | cons a rest =>
    rw [hr] at hhead hk hsorted
    obtain rfl : a = k := Option.some.inj hhead
    exact Nat.lt_irrefl a ((List.pairwise_cons.mp hsorted).1 a hk)

theorem tidy_failAll (p : Pending α) : p.failAll.Tidy := fun _ _ hk => by cases hk

/-- Whoever leaves takes its slot along. -/
theorem Tidy.leave (h : p.Tidy) {c : String} {k : Ticket} (place : ∀ c', k ∈ p.queue c' → c' = c) :
    (p.leave c k).Tidy := by
  intro c' k' hk
  have hqueued := mem_queue_leave hk
  rw [receiver?_leave, if_neg]
  · exact h c' k' hqueued
  · rintro rfl
    rw [queue_leave, place c' hqueued, if_pos rfl] at hk
    simpa using (List.mem_filter.mp hk).2

end Pending

namespace View

/-- No slot and no place in a queue is left behind. -/
structure Tidy (v : View) : Prop where
  boards : ∀ d, (v.board d).Tidy
  queues : ∀ n, ∀ id ∈ v.lock n, ∃ c ∈ v.calls, c.id = id ∧ c.request.need? = some n

variable {v : View} {c : Call} {k : Ticket}

theorem Tidy.setBoard (h : v.Tidy) {d : Desk} {p : Pending Unit} (tidy : p.Tidy) :
    (v.setBoard d p).Tidy := by
  refine ⟨fun d' => ?_, h.queues⟩
  rw [board_setBoard]
  split
  · exact tidy
  · exact h.boards d'

theorem Tidy.setPoint (h : v.Tidy) (id : CallId) (p : Point) : (v.setPoint id p).Tidy := by
  refine ⟨h.boards, fun n i hi => ?_⟩
  obtain ⟨x, hx, hid, hn⟩ := h.queues n i hi
  by_cases hxi : x.id = id
  · exact ⟨{ x with point := p }, mem_setPoint.mpr (Or.inr ⟨hxi, rfl, x, hx, hxi, rfl⟩), hid, hn⟩
  · exact ⟨x, mem_setPoint.mpr (Or.inl ⟨hx, hxi⟩), hid, hn⟩

theorem Tidy.lined (h : v.Tidy) (hc : c ∈ v.calls) : (v.changeLock c.request (· ++ [c.id])).Tidy := by
  have hlock := lock_changeLock v c.request (· ++ [c.id])
  rw [changeLock_eq]
  refine ⟨h.boards, fun n id hid => ?_⟩
  change id ∈ (v.changeLock c.request (· ++ [c.id])).lock n at hid
  rw [hlock] at hid
  split at hid
  · next hn =>
    rcases List.mem_append.mp hid with hid | hid
    · exact h.queues n id hid
    · exact ⟨c, hc, (List.mem_singleton.mp hid).symm, hn⟩
  · exact h.queues n id hid

/-- A call that goes leaves its queue, and it stands in no other one. -/
theorem Tidy.retire (h : v.Tidy) (ids : (v.calls.map (·.id)).Nodup) (hc : c ∈ v.calls) :
    (v.retire c).Tidy := by
  have hlock : ∀ n, (v.retire c).lock n =
      if c.request.need? = some n then (v.lock n).filter (· != c.id) else v.lock n := fun n =>
    lock_changeLock _ c.request (·.filter (· != c.id)) n
  rw [retire_eq]
  refine ⟨h.boards, fun n id hid => ?_⟩
  change id ∈ (v.retire c).lock n at hid
  rw [hlock] at hid
  have hqueued : id ∈ v.lock n := by
    split at hid
    · exact List.mem_of_mem_filter hid
    · exact hid
  obtain ⟨x, hx, rfl, hn⟩ := h.queues n id hqueued
  refine ⟨x, List.mem_filter.mpr ⟨hx, bne_iff_ne.mpr fun he => ?_⟩, rfl, hn⟩
  rw [List.inj_on_of_nodup_map ids hx hc he] at hn hid
  rw [if_pos hn] at hid
  simpa using (List.mem_filter.mp hid).2

theorem Tidy.entered (h : v.Tidy) (hv : v.Sound) (dl : Nat) : (v.enter c dl).Tidy :=
  (h.setBoard ((h.boards _).register (hv.boards _) _)).setPoint _ _

theorem Tidy.quit (h : v.Tidy) (hv : v.Sound) (hw : v.Waits c c.request.desk k) : (v.quit c k).Tidy := by
  have hleft : (v.setBoard c.request.desk ((v.board c.request.desk).leave c.request.command k)).Tidy := by
    refine h.setBoard ((h.boards _).leave fun c' hk => ?_)
    obtain ⟨r, hr, place⟩ := hv.seat c _ k hw
    rw [h.boards _ c' k hk] at hr
    exact (hv.boards _).unique c' _ k hk (place (Option.some.inj hr).symm)
  exact hleft.retire hv.ids hw.1

end View

namespace State

variable {s s' : State}

theorem Change.tidy (hch : Change s s') (hs : s.Sound) (h : s.view.Tidy) : s'.view.Tidy := by
  cases hch with
  | noted es plain => exact h
  | rewired c lasts opens listeners closes inbound => exact h
  | readied ready => exact h
  | served =>
    rw [view_ensureService]
    exact h
  | marked t l tab =>
    rw [view_mark s t l tab]
    exact ⟨h.boards, h.queues⟩
  | unmarked r =>
    rw [view_unmark]
    exact h
  | purged => exact ⟨h.boards, h.queues⟩
  | enrolled c t tab mem idle holds about known vacant => exact ⟨h.boards, h.queues⟩
  | created e vacant =>
    rw [view_create]
    exact ⟨h.boards, h.queues⟩
  | lined c mem fresh =>
    rw [view_changeLock _ _ _ (Or.inl (hs.hasTab mem))]
    exact h.lined mem
  | queued c mem fresh =>
    rw [view_setPoint]
    exact h.setPoint _ _
  | asked c m ready sent =>
    rw [view_asked s ready m]
    exact h.entered hs _
  | refused c m ready e unsent =>
    have hentered := h.entered hs (c := c) (s.deadlineOf c.request)
    have hw := hs.waits_seated ready m
    have hsound := hs.asked ready m
    unfold State.Sound at hsound
    rw [view_asked s ready m] at hw hsound
    rw [hs.view_refused ready m]
    exact hentered.quit (c := s.seated c) hsound hw
  | quit c k d mem waits =>
    rw [view_quit s c k (hs.hasTab mem)]
    exact h.quit hs (waits_of_point mem waits)
  | retired c mem idle =>
    rw [view_retire]
    exact h.retire hs.ids mem
  | granted c t l k d v mem about waits answered =>
    rw [hs.view_granted mem about]
    have hq := h.quit hs (waits_of_point mem waits)
    exact ⟨hq.boards, hq.queues⟩

theorem ReplyFreeMove.tidy (hu : ReplyFreeMove s s') (hs : s.Sound) (h : s.view.Tidy) : s'.view.Tidy := by
  cases hu with
  | change hc => exact hc.tidy hs h
  | opened id r can =>
    refine ⟨h.boards, fun n i hi => ?_⟩
    obtain ⟨x, hx, hxi⟩ := h.queues n i hi
    exact ⟨x, List.mem_append_left _ hx, hxi⟩
  | wired c connected listeners closes => exact h
  | tweaked t f keeps =>
    rw [view_modifyTab_keeps s t keeps]
    exact h
  | aged ms => exact h
  | separated =>
    rw [view_failSeparate]
    exact h.setBoard (Pending.tidy_failAll _)

theorem Answer.tidy {d : Desk} {command : String} (ha : Answer s d command s') (hs : s.Sound)
    (h : s.view.Tidy) : s'.view.Tidy := by
  rw [ha.view]
  exact h.setBoard ((h.boards d).complete (View.Sound.boards hs d) _ _)

theorem EndFreeMove.tidy (hc : EndFreeMove s s') (hs : s.Sound) (h : s.view.Tidy) : s'.view.Tidy := by
  cases hc with
  | bypassFree ho =>
    cases ho with
    | replyFree hu => exact hu.tidy hs h
    | answer ha routed => exact ha.tidy hs h
  | handed ha => exact ha.tidy hs h
  | dropped => exact h

theorem tidy_close (h : s.view.Tidy) : s.close.1.view.Tidy := by
  rw [view_close]
  split
  · exact h.setBoard (Pending.tidy_failAll _)
  · exact h

theorem tidy_perform (d : Duty) (h : s.view.Tidy) : (s.perform d).1.view.Tidy := by
  cases d with
  | detach t =>
    rw [view_detach]
    have hf := h.setBoard (d := .tab t) (Pending.tidy_failAll (s.view.board (.tab t)))
    exact ⟨hf.boards, hf.queues⟩
  | terminate id =>
    rw [registry_terminate]
    exact ⟨h.boards, h.queues⟩
  | closeIfIdle =>
    rw [perform_closeIfIdle]
    split
    · exact h
    · exact tidy_close h

theorem Moves.tidy (hm : Moves s s') (hs : s.Sound) (h : s.view.Tidy) : s'.view.Tidy := by
  induction hm with
  | refl => exact h
  | tail steps step ih =>
    cases step with
    | endFree hc => exact hc.tidy (Moves.sound steps hs) ih
    | performed d => exact tidy_perform d ih
    | closed => exact tidy_close ih

/-- In every history nothing is left behind. -/
theorem Sound.tidy_run (hs : s.Sound) (actions : List Action) (h : s.view.Tidy) :
    (s.run actions).view.Tidy := by
  induction actions generalizing s with
  | nil => exact h
  | cons a rest ih => exact ih (hs.act a) ((hs.moves_act a).tidy hs h)

theorem tidy_initial (config : Config) (restartable : Bool) (rules : List (String × Json)) :
    (initial config restartable rules).view.Tidy where
  boards := fun d c k hk => by cases d <;> cases hk
  queues := fun n id hid => by cases n <;> cases hid

end State
end RemoteDebug.Engine
