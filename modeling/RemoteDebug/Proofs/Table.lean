import RemoteDebug.Engine.Pending
import RemoteDebug.Proofs.Lookup

/-! Tables of awaited replies: what each operation does to the queues and to the receivers.

`Sound` is what every operation keeps: tickets grow along a queue, a ticket
stands in the queue of one command, and whoever waits has a place. Hence failing
all reaches every waiter, and a reply passes over exactly the waiters that are
gone. The value of a reply decides nothing, so a table can be looked at without
the values (`blank`). -/
namespace RemoteDebug.Engine
namespace Pending

variable {α : Type}

/-! ### Queues -/

theorem queue_of_lookup {p : Pending α} {c : String} {q : List Ticket}
    (h : p.slots.lookup c = some q) : p.queue c = q := by
  simp [queue, h]

theorem queue_of_lookup_none {p : Pending α} {c : String} (h : p.slots.lookup c = none) :
    p.queue c = [] := by
  simp [queue, h]

theorem queue_register (p : Pending α) (c c' : String) :
    (p.register c).2.queue c' = if c' = c then p.queue c ++ [p.nextTicket] else p.queue c' := by
  show ((assign c _ p.slots).lookup c').getD [] = _
  rw [lookup_assign]
  split <;> rfl

/-- The slots that a reply finds: those before them belong to receivers that are gone. -/
def reached (p : Pending α) (c : String) : List Ticket :=
  (p.queue c).dropWhile fun t => !p.isLive t

theorem queue_complete (p : Pending α) (c c' : String) (v : α) :
    (p.complete c v).2.queue c' = if c' = c then (p.reached c).tail else p.queue c' := by
  unfold complete reached
  split
  · next h =>
    rw [queue_of_lookup_none h]
    split
    · next hc => rw [hc, queue_of_lookup_none h]; rfl
    · rfl
  · next q h =>
    rw [queue_of_lookup h]
    split
    · next hd =>
      show ((assign c [] p.slots).lookup c').getD [] = _
      rw [lookup_assign, hd]
      split <;> rfl
    · next t rest hd =>
      show ((assign c rest p.slots).lookup c').getD [] = _
      rw [lookup_assign, hd]
      split <;> rfl

theorem queue_failAll (p : Pending α) (c : String) : p.failAll.queue c = [] := rfl

theorem queue_withdraw (p : Pending α) (c c' : String) (t : Ticket) :
    (p.withdraw c t).queue c' = if c' = c then (p.queue c).filter (· != t) else p.queue c' := by
  unfold withdraw
  cases h : p.slots.lookup c with
  | none =>
    show p.queue c' = _
    rw [queue_of_lookup_none h]
    split
    · next hc => rw [hc]; exact queue_of_lookup_none h
    · rfl
  | some q =>
    rw [queue_of_lookup h]
    show (List.lookup c' (if (q.filter (· != t)).isEmpty then p.slots.filter (·.1 != c)
      else assign c (q.filter (· != t)) p.slots)).getD [] = _
    split
    · next he =>
      rw [lookup_filter_ne, List.isEmpty_iff.mp he]
      split <;> rfl
    · rw [lookup_assign]
      split <;> rfl

theorem queue_leave (p : Pending α) (c c' : String) (t : Ticket) :
    (p.leave c t).queue c' = if c' = c then (p.queue c).filter (· != t) else p.queue c' :=
  queue_withdraw (p.release t) c c' t

/-! ### Receivers -/

theorem receiver?_register (p : Pending α) (c : String) (t : Ticket)
    (h : p.receiver? p.nextTicket = none) :
    (p.register c).2.receiver? t = if t = p.nextTicket then some .waiting else p.receiver? t := by
  show (p.receivers ++ [(p.nextTicket, Receiver.waiting)]).lookup t = _
  rw [List.lookup_append]
  by_cases ht : t = p.nextTicket
  · have : p.receivers.lookup p.nextTicket = none := h
    simp [ht, this]
  · have hl : [(p.nextTicket, (Receiver.waiting : Receiver α))].lookup t = none := by
      rw [List.lookup_cons, beq_false_of_ne ht]
      rfl
    rw [hl, Option.or_none, if_neg ht]
    rfl

theorem receiver?_setReceiver (p : Pending α) (t : Ticket) (r : Receiver α) (t' : Ticket) :
    (p.setReceiver t r).receiver? t' =
      if t' = t then (p.receiver? t').map fun _ => r else p.receiver? t' := by
  show (p.receivers.map fun e => if e.1 = t then (t, r) else e).lookup t' =
    if t' = t then (p.receivers.lookup t').map (fun _ => r) else p.receivers.lookup t'
  rw [← lookup_map_at p.receivers (· = t) (fun _ => r) t']
  congr 1
  apply List.map_congr_left
  intro e _
  split
  · next h => rw [h]
  · rfl

/-- A reply reaches the first live slot and nobody else. -/
theorem receiver?_complete (p : Pending α) (c : String) (v : α) (t : Ticket) :
    (p.complete c v).2.receiver? t =
      if (p.reached c).head? = some t then (p.receiver? t).map fun _ => .answered v
      else p.receiver? t := by
  unfold complete reached
  split
  · next h => simp [queue_of_lookup_none h]
  · next q h =>
    rw [queue_of_lookup h]
    split
    · next hd => simp [hd, receiver?]
    · next u rest hd =>
      show (p.setReceiver u (.answered v)).receiver? t = _
      rw [receiver?_setReceiver, hd]
      simp only [List.head?_cons, Option.some.injEq, eq_comm]

theorem complete_fst (p : Pending α) (c : String) (v : α) :
    (p.complete c v).1 = (p.reached c).head?.isSome := by
  unfold complete reached
  split
  · next h => simp [queue_of_lookup_none h]
  · next q h =>
    rw [queue_of_lookup h]
    split <;> simp_all

theorem receiver?_release (p : Pending α) (t t' : Ticket) :
    (p.release t).receiver? t' = if t' = t then none else p.receiver? t' :=
  lookup_filter_ne _ _ _

theorem receiver?_withdraw (p : Pending α) (c : String) (t t' : Ticket) :
    (p.withdraw c t).receiver? t' =
      if t' = t ∧ (p.slots.lookup c).isSome then (p.receiver? t').map orphaned else p.receiver? t' := by
  unfold withdraw
  cases p.slots.lookup c with
  | none => simp
  | some q =>
    show (p.receivers.map fun e => if e.1 = t then (t, orphaned e.2) else e).lookup t' = _
    have hm : (fun e : Ticket × Receiver α => if e.1 = t then (t, orphaned e.2) else e) =
        fun e => if e.1 = t then (e.1, orphaned e.2) else e := by
      funext e
      split
      · next h => rw [h]
      · rfl
    rw [hm, lookup_map_at p.receivers (· = t) orphaned t']
    simp only [Option.isSome_some, and_true]
    rfl

theorem receiver?_leave (p : Pending α) (c : String) (t t' : Ticket) :
    (p.leave c t).receiver? t' = if t' = t then none else p.receiver? t' := by
  unfold leave
  rw [receiver?_withdraw, receiver?_release]
  by_cases ht : t' = t <;> simp [ht]

@[simp] theorem nextTicket_register (p : Pending α) (c : String) :
    (p.register c).2.nextTicket = p.nextTicket + 1 := rfl

@[simp] theorem nextTicket_complete (p : Pending α) (c : String) (v : α) :
    (p.complete c v).2.nextTicket = p.nextTicket := by
  unfold complete
  split
  · rfl
  · split <;> rfl

@[simp] theorem nextTicket_withdraw (p : Pending α) (c : String) (t : Ticket) :
    (p.withdraw c t).nextTicket = p.nextTicket := by
  unfold withdraw
  split <;> rfl

theorem isLive_iff (p : Pending α) (t : Ticket) :
    p.isLive t = true ↔ p.receiver? t = some .waiting := by
  unfold isLive
  split
  · next h => simp [h]
  · next h => exact ⟨fun hf => absurd hf (by simp), fun hw => absurd hw h⟩

/-! ### What every operation keeps -/

structure Sound (p : Pending α) : Prop where
  keys : (p.receivers.map (·.1)).Nodup
  below : ∀ t r, p.receiver? t = some r → t < p.nextTicket
  queued : ∀ c, ∀ t ∈ p.queue c, t < p.nextTicket
  sorted : ∀ c, (p.queue c).Pairwise (· < ·)
  unique : ∀ c c' t, t ∈ p.queue c → t ∈ p.queue c' → c = c'
  /-- Whoever waits has a place. -/
  placed : ∀ t, p.receiver? t = some .waiting → ∃ c, t ∈ p.queue c

theorem Sound.empty : Sound ({} : Pending α) where
  keys := List.nodup_nil
  below := fun _ _ h => by cases h
  queued := fun _ _ h => by cases h
  sorted := fun _ => List.Pairwise.nil
  unique := fun _ _ _ h _ => by cases h
  placed := fun _ h => by cases h

variable {p : Pending α}

theorem Sound.next_free (h : p.Sound) : p.receiver? p.nextTicket = none := by
  cases hr : p.receiver? p.nextTicket with
  | none => rfl
  | some r => exact absurd (h.below _ _ hr) (Nat.lt_irrefl _)

theorem Sound.register (h : p.Sound) (c : String) : (p.register c).2.Sound where
  keys := by
    show ((p.receivers ++ [(p.nextTicket, (.waiting : Receiver α))]).map (·.1)).Nodup
    rw [List.map_append, List.nodup_append]
    refine ⟨h.keys, by simp, ?_⟩
    rintro a ha b hb rfl
    obtain ⟨e, he, rfl⟩ := List.mem_map.mp ha
    have hlt := h.below e.1 e.2 (lookup_of_mem h.keys he)
    have heq : e.1 = p.nextTicket := by simpa using hb
    exact absurd hlt (heq ▸ Nat.lt_irrefl _)
  below := by
    intro t r hr
    rw [receiver?_register _ _ _ h.next_free] at hr
    rw [nextTicket_register]
    split at hr
    · next ht => exact ht ▸ Nat.lt_succ_self _
    · exact Nat.lt_succ_of_lt (h.below _ _ hr)
  queued := by
    intro c' t ht
    rw [queue_register] at ht
    rw [nextTicket_register]
    split at ht
    · rcases List.mem_append.mp ht with ht | ht
      · exact Nat.lt_succ_of_lt (h.queued _ _ ht)
      · exact List.mem_singleton.mp ht ▸ Nat.lt_succ_self _
    · exact Nat.lt_succ_of_lt (h.queued _ _ ht)
  sorted := by
    intro c'
    rw [queue_register]
    split
    · rw [List.pairwise_append]
      refine ⟨h.sorted c, List.pairwise_singleton _ _, ?_⟩
      intro a ha b hb
      have : b = p.nextTicket := by simpa using hb
      rw [this]
      exact h.queued _ _ ha
    · exact h.sorted c'
  unique := by
    intro c₁ c₂ t h₁ h₂
    rw [queue_register] at h₁ h₂
    -- the new ticket is in no other queue
    have hnew : ∀ c', p.nextTicket ∉ p.queue c' := fun c' hm => Nat.lt_irrefl _ (h.queued _ _ hm)
    split at h₁ <;> split at h₂
    · simp_all
    · next e₁ _ =>
      rcases List.mem_append.mp h₁ with h₁ | h₁
      · exact e₁.trans (h.unique _ _ _ h₁ h₂)
      · exact absurd h₂ ((List.mem_singleton.mp h₁) ▸ hnew _)
    · next e₂ =>
      rcases List.mem_append.mp h₂ with h₂ | h₂
      · exact (h.unique _ _ _ h₁ h₂).trans e₂.symm
      · exact absurd h₁ ((List.mem_singleton.mp h₂) ▸ hnew _)
    · exact h.unique _ _ _ h₁ h₂
  placed := by
    intro t hr
    rw [receiver?_register _ _ _ h.next_free] at hr
    split at hr
    · next ht => exact ⟨c, by rw [queue_register, if_pos rfl, ht]; simp⟩
    · obtain ⟨c', hc'⟩ := h.placed t hr
      refine ⟨c', ?_⟩
      rw [queue_register]
      split
      · next e => exact List.mem_append_left _ (e ▸ hc')
      · exact hc'

theorem reached_suffix (p : Pending α) (c : String) : p.reached c <:+ p.queue c :=
  List.dropWhile_suffix _

theorem mem_queue_complete {c c' : String} {v : α} {t : Ticket} (h : t ∈ (p.complete c v).2.queue c') :
    t ∈ p.queue c' := by
  rw [queue_complete] at h
  split at h
  · next e => exact e ▸ (reached_suffix p c).subset (List.mem_of_mem_tail h)
  · exact h

/-- A waiter that a reply does not reach first keeps its place. -/
theorem mem_reached_of_waiting {c : String} {t : Ticket} (ht : t ∈ p.queue c)
    (hw : p.receiver? t = some .waiting) : t ∈ p.reached c := by
  have hd : t ∉ (p.queue c).takeWhile fun t => !p.isLive t := by
    intro hm
    have hdead := List.all_eq_true.mp List.all_takeWhile t hm
    rw [(isLive_iff p t).mpr hw] at hdead
    cases hdead
  rw [← List.takeWhile_append_dropWhile (p := fun t => !p.isLive t) (l := p.queue c)] at ht
  exact (List.mem_append.mp ht).resolve_left hd

theorem waiting_of_head_reached {c : String} {t : Ticket} (h : (p.reached c).head? = some t) :
    p.receiver? t = some .waiting := by
  unfold reached at h
  have hne : (p.queue c).dropWhile (fun t => !p.isLive t) ≠ [] := by
    intro he
    rw [he] at h
    cases h
  have := List.head_dropWhile_not (fun t => !p.isLive t) hne
  rw [List.head?_eq_some_head hne] at h
  rw [Option.some.inj h] at this
  exact (isLive_iff p t).mp (by simpa using this)

theorem keys_complete (p : Pending α) (c : String) (v : α) :
    (p.complete c v).2.receivers.map (·.1) = p.receivers.map (·.1) := by
  unfold complete
  split
  · rfl
  · split
    · rfl
    · next t rest _ =>
      show ((p.receivers.map fun e => if e.1 = t then (t, Receiver.answered v) else e).map (·.1)) = _
      rw [List.map_map]
      apply List.map_congr_left
      intro e _
      simp only [Function.comp_apply]
      split
      · next h => exact h.symm
      · rfl

theorem Sound.complete (h : p.Sound) (c : String) (v : α) : (p.complete c v).2.Sound where
  keys := by rw [keys_complete]; exact h.keys
  below := by
    intro t r hr
    rw [receiver?_complete] at hr
    rw [nextTicket_complete]
    split at hr
    · next hh => exact h.below _ _ (waiting_of_head_reached hh)
    · exact h.below _ _ hr
  queued := by
    intro c' t ht
    rw [nextTicket_complete]
    exact h.queued _ _ (mem_queue_complete ht)
  sorted := by
    intro c'
    rw [queue_complete]
    split
    · exact ((h.sorted c).sublist (reached_suffix p c).sublist).tail
    · exact h.sorted c'
  unique := fun _ _ _ h₁ h₂ => h.unique _ _ _ (mem_queue_complete h₁) (mem_queue_complete h₂)
  placed := by
    intro t hr
    rw [receiver?_complete] at hr
    split at hr
    · next hh => simp [waiting_of_head_reached hh] at hr
    · next hh =>
      obtain ⟨c', hc'⟩ := h.placed t hr
      refine ⟨c', ?_⟩
      rw [queue_complete]
      split
      · next e =>
        -- behind the slot that was reached
        have hm := mem_reached_of_waiting (e ▸ hc') hr
        cases hl : p.reached c with
        | nil => rw [hl] at hm; cases hm
        | cons u rest =>
          rw [hl] at hm hh
          rcases List.mem_cons.mp hm with rfl | hm
          · exact absurd rfl hh
          · exact hm
      · exact hc'

/-- Failing all reaches everybody who waits. -/
theorem Sound.receiver?_failAll (h : p.Sound) (t : Ticket) :
    p.failAll.receiver? t = (p.receiver? t).map orphaned := by
  show (p.receivers.map fun e =>
    if e.1 ∈ p.slots.flatMap (·.2) then (e.1, orphaned e.2) else e).lookup t = _
  rw [lookup_map_at p.receivers (· ∈ p.slots.flatMap (·.2)) orphaned t]
  split
  · rfl
  · next hn =>
    cases hr : p.receivers.lookup t with
    | none => simp [receiver?, hr]
    | some r =>
      cases r with
      | waiting =>
        obtain ⟨c, hc⟩ := h.placed t hr
        refine absurd ?_ hn
        unfold queue at hc
        cases hq : p.slots.lookup c with
        | none => rw [hq] at hc; cases hc
        | some q =>
          rw [hq] at hc
          exact List.mem_flatMap.mpr ⟨(c, q), mem_of_lookup hq, hc⟩
      | _ => simp [receiver?, hr, orphaned]

theorem Sound.failAll (h : p.Sound) : p.failAll.Sound where
  keys := by
    show ((p.receivers.map fun e =>
      if e.1 ∈ p.slots.flatMap (·.2) then (e.1, orphaned e.2) else e).map (·.1)).Nodup
    rw [map_fst_map_at]
    exact h.keys
  below := by
    intro t r hr
    rw [h.receiver?_failAll] at hr
    obtain ⟨r', hr', _⟩ := Option.map_eq_some_iff.mp hr
    exact h.below _ _ hr'
  queued := fun _ _ ht => by cases ht
  sorted := fun _ => List.Pairwise.nil
  unique := fun _ _ _ ht => by cases ht
  placed := by
    intro t hr
    rw [h.receiver?_failAll] at hr
    obtain ⟨r, _, hr⟩ := Option.map_eq_some_iff.mp hr
    cases r <;> cases hr

theorem Sound.release (h : p.Sound) (t : Ticket) : (p.release t).Sound where
  keys := nodup_map_fst_filter h.keys _
  below := by
    intro u r hr
    rw [receiver?_release] at hr
    split at hr
    · cases hr
    · exact h.below _ _ hr
  queued := h.queued
  sorted := h.sorted
  unique := h.unique
  placed := by
    intro u hr
    rw [receiver?_release] at hr
    split at hr
    · cases hr
    · exact h.placed u hr

theorem keys_withdraw (p : Pending α) (c : String) (t : Ticket) :
    (p.withdraw c t).receivers.map (·.1) = p.receivers.map (·.1) := by
  unfold withdraw
  split
  · rfl
  · show (p.receivers.map fun e => if e.1 = t then (t, orphaned e.2) else e).map (·.1) = _
    rw [List.map_map]
    apply List.map_congr_left
    intro e _
    simp only [Function.comp_apply]
    split
    · next h => exact h.symm
    · rfl

theorem mem_queue_withdraw {c c' : String} {t u : Ticket} (h : u ∈ (p.withdraw c t).queue c') :
    u ∈ p.queue c' := by
  rw [queue_withdraw] at h
  split at h
  · next e => exact e ▸ List.mem_of_mem_filter h
  · exact h

theorem mem_queue_leave {c c' : String} {t u : Ticket} (h : u ∈ (p.leave c t).queue c') : u ∈ p.queue c' :=
  mem_queue_withdraw (p := p.release t) h

/-- A slot that is withdrawn leaves nobody waiting without one. -/
theorem Sound.withdraw (h : p.Sound) (c : String) (t : Ticket) : (p.withdraw c t).Sound where
  keys := by
    rw [keys_withdraw]
    exact h.keys
  below := by
    intro u r hr
    rw [receiver?_withdraw] at hr
    rw [nextTicket_withdraw]
    split at hr
    · obtain ⟨r', hr', _⟩ := Option.map_eq_some_iff.mp hr
      exact h.below _ _ hr'
    · exact h.below _ _ hr
  queued := by
    intro c' u hu
    rw [nextTicket_withdraw]
    exact h.queued _ _ (mem_queue_withdraw hu)
  sorted := by
    intro c'
    rw [queue_withdraw]
    split
    · exact (h.sorted c).filter _
    · exact h.sorted c'
  unique := fun _ _ _ h₁ h₂ => h.unique _ _ _ (mem_queue_withdraw h₁) (mem_queue_withdraw h₂)
  placed := by
    intro u hr
    rw [receiver?_withdraw] at hr
    split at hr
    · obtain ⟨r, _, hr⟩ := Option.map_eq_some_iff.mp hr
      cases r <;> cases hr
    · next hne =>
      obtain ⟨c', hc'⟩ := h.placed u hr
      refine ⟨c', ?_⟩
      rw [queue_withdraw]
      split
      · next e =>
        -- its queue is there, so the slot that went is another one
        subst e
        refine List.mem_filter.mpr ⟨hc', bne_iff_ne.mpr fun hut => hne ⟨hut, ?_⟩⟩
        cases hq : p.slots.lookup c' with
        | none => rw [queue_of_lookup_none hq] at hc'; cases hc'
        | some q => rfl
      · exact hc'

theorem Sound.leave (h : p.Sound) (c : String) (t : Ticket) : (p.leave c t).Sound := (h.release t).withdraw c t

end Pending

/-! ### Without the values -/

def Receiver.blank {α : Type} : Receiver α → Receiver Unit
  | .waiting => .waiting
  | .answered _ => .answered ()
  | .failed => .failed

@[simp] theorem Receiver.blank_eq_waiting {α : Type} (r : Receiver α) :
    r.blank = .waiting ↔ r = .waiting := by cases r <;> simp [blank]

namespace Pending

variable {α : Type}

def blank (p : Pending α) : Pending Unit :=
  { slots := p.slots
    receivers := p.receivers.map fun e => (e.1, e.2.blank)
    nextTicket := p.nextTicket }

theorem receiver?_blank (p : Pending α) (t : Ticket) :
    p.blank.receiver? t = (p.receiver? t).map Receiver.blank :=
  lookup_map_value p.receivers Receiver.blank t

theorem receiver?_blank_waiting {p : Pending α} {t : Ticket} :
    p.blank.receiver? t = some .waiting ↔ p.receiver? t = some .waiting := by
  simp [receiver?_blank]

theorem isLive_blank (p : Pending α) (t : Ticket) : p.blank.isLive t = p.isLive t := by
  unfold isLive
  rw [receiver?_blank]
  cases p.receiver? t with
  | none => rfl
  | some r => cases r <;> rfl

theorem blank_register (p : Pending α) (c : String) :
    (p.register c).2.blank = (p.blank.register c).2 := by
  simp [register, blank, queue, Receiver.blank]

theorem blank_map_at (l : List (Ticket × Receiver α)) (t : Ticket) (f : Receiver α → Receiver α)
    (g : Receiver Unit → Receiver Unit) (h : ∀ r, (f r).blank = g r.blank) :
    (l.map fun e => if e.1 = t then (t, f e.2) else e).map (fun e => (e.1, e.2.blank)) =
      (l.map fun e => (e.1, e.2.blank)).map fun e => if e.1 = t then (t, g e.2) else e := by
  rw [List.map_map, List.map_map]
  apply List.map_congr_left
  intro e _
  simp only [Function.comp_apply]
  split
  · rw [h]
  · rfl

theorem blank_orphaned (r : Receiver α) : (orphaned r).blank = orphaned r.blank := by
  cases r <;> rfl

theorem blank_complete (p : Pending α) (c : String) (v : α) :
    (p.complete c v).2.blank = (p.blank.complete c ()).2 := by
  have hs : p.blank.slots.lookup c = p.slots.lookup c := rfl
  unfold complete
  rw [hs]
  cases p.slots.lookup c with
  | none => rfl
  | some q =>
    simp only [isLive_blank]
    cases q.dropWhile fun t => !p.isLive t with
    | nil => rfl
    | cons t rest =>
      simp only [blank, setReceiver, Pending.mk.injEq, true_and, and_true]
      exact blank_map_at p.receivers t (fun _ => .answered v) (fun _ => .answered ()) fun _ => rfl

theorem blank_failAll (p : Pending α) : p.failAll.blank = p.blank.failAll := by
  simp only [failAll, blank, Pending.mk.injEq, true_and, and_true, List.map_map]
  apply List.map_congr_left
  intro e _
  by_cases hd : e.1 ∈ p.slots.flatMap (·.2)
  · simp only [Function.comp_apply, hd, if_true, blank_orphaned]
  · simp only [Function.comp_apply, hd, if_false]

theorem blank_release (p : Pending α) (t : Ticket) : (p.release t).blank = p.blank.release t := by
  simp only [release, blank, List.filter_map]
  rfl

theorem blank_leave (p : Pending α) (c : String) (t : Ticket) :
    (p.leave c t).blank = p.blank.leave c t := by
  have hs : (p.release t).blank.slots.lookup c = (p.release t).slots.lookup c := rfl
  unfold leave
  rw [← blank_release]
  unfold withdraw
  rw [hs]
  cases (p.release t).slots.lookup c with
  | none => rfl
  | some q =>
    simp only [blank, Pending.mk.injEq, true_and, and_true]
    exact blank_map_at _ t orphaned orphaned blank_orphaned

end Pending
end RemoteDebug.Engine
