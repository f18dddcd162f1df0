import RemoteDebug.Proofs.Incident

/-! How attachments end, one duty after the other.

Whatever sets the duties going and in whatever order they come, an instance that
was attached is detached at most once, its context hears of it once, and then the
listener that it had hears of it once; of any other instance nothing is heard. -/
namespace RemoteDebug.Engine
open Protocol Wire

/-- An event of a tab, or the grant of its attach. -/
def Entry.isOf (t : Instance) : Entry → Bool
  | .event u _ => u == t
  | .finished _ (.attach u _) (.handshake (.ok ())) => u == t
  | _ => false

namespace State

variable {s s' s'' : State} {news : List Entry}

theorem farewell_eq (t : Instance) (h : s'.view.listener = s.view.listener) :
    s'.farewell t = s.farewell t := by
  have ht : (s'.tab? t).bind (·.listener) = (s.tab? t).bind (·.listener) := congrFun h t
  unfold farewell told
  rw [ht]

theorem farewell_of_listener {t : Instance} {l : Listener} (h : s.view.listener t = some l) :
    s.farewell t = [.event t .contextDetached, .event t (.disconnected l)] := by
  have ht : (s.tab? t).bind (·.listener) = some l := h
  unfold farewell told
  rw [ht]

theorem filter_farewell (s : State) (t u : Instance) :
    (s.farewell t).filter (·.isOf u) = if u = t then s.farewell t else [] := by
  have hall : ∀ e ∈ s.farewell t, e.isOf u = (t == u) := by
    intro e he
    rcases List.mem_cons.mp he with rfl | he
    · rfl
    · unfold told at he
      split at he
      · rw [List.mem_singleton.mp he]
        rfl
      · cases he
  split
  · next h => exact List.filter_eq_self.mpr fun e he => by rw [hall e he, h, beq_self_eq_true]
  · next h =>
    refine List.filter_eq_nil_iff.mpr fun e he => ?_
    rw [hall e he, beq_iff_eq]
    exact fun ht => h ht.symm

/-- What has become of the attachments of a state, and what was heard of it. -/
structure Ended (s s' : State) (news : List Entry) : Prop where
  journal : s'.journal = s.journal ++ news
  listener : s'.view.listener = s.view.listener
  each : ∀ t, (s'.isAttached t = s.isAttached t ∧ news.filter (·.isOf t) = []) ∨
    (s.isAttached t = true ∧ s'.isAttached t = false ∧ news.filter (·.isOf t) = s.farewell t)

theorem Ended.refl (s : State) : Ended s s [] where
  journal := (List.append_nil _).symm
  listener := rfl
  each := fun _ => Or.inl ⟨rfl, rfl⟩

/-- Something is noted that is of no tab, and no attachment changes. -/
theorem Ended.noted (h : Ended s s' news) {es : List Entry} (journal : s''.journal = s'.journal ++ es)
    (view : s''.view.listener = s'.view.listener) (attached : s''.view.attached = s'.view.attached)
    (others : ∀ t, es.filter (·.isOf t) = []) : Ended s s'' (news ++ es) where
  journal := by rw [journal, h.journal, List.append_assoc]
  listener := view.trans h.listener
  each := by
    intro t
    have ha : s''.isAttached t = s'.isAttached t := congrFun attached t
    rw [List.filter_append, others t, List.append_nil, ha]
    exact h.each t

theorem view_freed (s : State) (t : Instance) :
    ((s.modifyTab t Tab.cutOff).announceDetached t).view = s.view.cutOff t := by
  rw [view_announceDetached, view_cutOff]

/-- An attached instance is detached. -/
theorem Ended.detached (h : Ended s s' news) {t : Instance} (ha : s'.isAttached t = true) :
    Ended s ((s'.modifyTab t Tab.cutOff).announceDetached t) (news ++ s.farewell t) where
  journal := by
    have hl : (s'.modifyTab t Tab.cutOff).view.listener = s.view.listener := by
      rw [view_cutOff]
      exact h.listener
    rw [announceDetached_eq, farewell_eq t hl, ← List.append_assoc, ← h.journal]
    rfl
  listener := by
    rw [view_freed]
    exact h.listener
  each := by
    intro u
    have hu : ((s'.modifyTab t Tab.cutOff).announceDetached t).isAttached u =
        if u = t then false else s'.isAttached u := by
      show ((s'.modifyTab t Tab.cutOff).announceDetached t).view.attached u = _
      rw [view_freed]
      exact View.attached_setAttached s'.view t u false
    rw [List.filter_append, filter_farewell, hu]
    by_cases hut : u = t
    · subst hut
      -- it is still attached, so nothing was heard of it before
      rcases h.each u with ⟨hsame, hnone⟩ | ⟨_, hgone, _⟩
      · refine Or.inr ⟨hsame ▸ ha, if_pos rfl, ?_⟩
        rw [hnone, if_pos rfl, List.nil_append]
      · rw [ha] at hgone
        cases hgone
    · rw [if_neg hut, if_neg hut, List.append_nil]
      exact h.each u

theorem Ended.close (h : Ended s s' news) : ∃ news', Ended s s'.close.1 news' := by
  have hlistener : s'.close.1.view.listener = s'.view.listener := by
    rw [view_close]
    split <;> rfl
  have hattached : s'.close.1.view.attached = s'.view.attached := funext fun t => isAttached_close s' t
  rcases journal_close s' with hj | hj
  · exact ⟨news ++ [], h.noted (hj.trans (List.append_nil _).symm) hlistener hattached fun _ => rfl⟩
  · exact ⟨news ++ [.connectionClosed], h.noted hj hlistener hattached fun _ => rfl⟩

theorem Ended.perform (h : Ended s s' news) (d : Duty) : ∃ news', Ended s (s'.perform d).1 news' := by
  have still : ∀ {s''}, s''.journal = s'.journal → s''.view.listener = s'.view.listener →
      s''.view.attached = s'.view.attached → ∃ news', Ended s s'' news' := by
    intro s'' hj hl ha
    exact ⟨news ++ [], h.noted (hj.trans (List.append_nil _).symm) hl ha fun _ => rfl⟩
  cases d with
  | detach t =>
    unfold State.perform
    dsimp only
    split
    · next ha => exact ⟨_, h.detached ha⟩
    · next ha =>
      refine still rfl ?_ ?_
      · rw [view_cutOff]
        rfl
      · rw [view_cutOff]
        show Function.update s'.view.attached t false = _
        exact Function.update_eq_self_iff.mpr (Bool.eq_false_iff.mpr ha).symm
  | terminate id =>
    rw [registry_terminate]
    exact still rfl rfl rfl
  | closeIfIdle =>
    rw [perform_closeIfIdle]
    split
    · exact still rfl rfl rfl
    · exact h.close

theorem Ended.unwind (h : Ended s s' news) (duties : List Duty) :
    ∃ news', Ended s (s'.unwind duties) news' :=
  unwind_induction (P := fun x _ => ∃ news', Ended s x news')
    (fun _ d _ ⟨_, hx⟩ => hx.perform d) s' duties ⟨news, h⟩

/-- Whatever ends, each instance is told at most once, and only if it was attached. -/
theorem ended_fire (s : State) (k : Trigger) : ∃ news, Ended s (s.fire k) news := by
  cases k with
  | close =>
    obtain ⟨news, h⟩ := (Ended.refl s).close
    exact h.unwind s.close.2
  | detached t => exact (Ended.refl s).unwind _
  | terminated id => exact (Ended.refl s).unwind _

end State
end RemoteDebug.Engine
