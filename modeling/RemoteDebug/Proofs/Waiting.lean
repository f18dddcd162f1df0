import Mathlib.Data.List.Sort
import Mathlib.Data.List.TakeWhile
import RemoteDebug.Proofs.Table

/-! A table of awaited replies is a queue of live waiters for each command.

The table holds more than such queues: slots whose receivers are gone, keys whose queues are empty, and
beside it there are withdrawals still to come, some of them of slots that are not there any more. `Fifo` has
none of that, only the live waiters in the order in which they came. Whatever is done to the table and in
whatever order, its live slots are the waiters of the queues. When no withdrawal is due any more the table
is empty. -/
namespace RemoteDebug.Engine
namespace Pending

variable {α : Type}

/-- What can be done to a table. A waiter is named by its ticket; to leave is to release and to withdraw, and
other acts may come between the two. -/
inductive Act (α : Type) where
  | register (command : String)
  | complete (command : String) (value : α)
  | failAll
  /-- A waiter gives up its receiver. -/
  | release (t : Ticket)
  /-- The slot of a waiter is withdrawn, if that is still due. -/
  | withdraw (t : Ticket)

/-- A table, and the waiters whose slots are still to be withdrawn, with their commands. -/
structure Guarded (α : Type) where
  table : Pending α := {}
  due : List (Ticket × String) := []

def Guarded.act (g : Guarded α) : Act α → Guarded α
  | .register c => ⟨(g.table.register c).2, g.due ++ [((g.table.register c).1, c)]⟩
  | .complete c v => { g with table := (g.table.complete c v).2 }
  | .failAll => { g with table := g.table.failAll }
  | .release t => { g with table := g.table.release t }
  | .withdraw t =>
    match g.due.lookup t with
    | none => g
    | some c => ⟨g.table.withdraw c t, g.due.filter (·.1 != t)⟩

/-- The empty table after these acts. -/
def Guarded.run (acts : List (Act α)) : Guarded α := acts.foldl act {}

theorem Guarded.run_append (acts more : List (Act α)) : run (acts ++ more) = more.foldl act (run acts) :=
  List.foldl_append

/-! ### Queues of live waiters -/

structure Fifo where
  /-- All waiters there have been, with their commands, in the order in which they came. -/
  registered : List (Ticket × String) := []
  /-- Those of them that hold their receiver and have got nothing. -/
  waiting : List (Ticket × String) := []

namespace Fifo

/-- The live waiters of a command, oldest first. -/
def line (q : Fifo) (c : String) : List Ticket := (q.waiting.filter (·.2 = c)).map (·.1)

def drop (q : Fifo) (t : Ticket) : Fifo := { q with waiting := q.waiting.filter (·.1 != t) }

/-- The next waiter comes with the next number, a reply takes the first of its line, a failure takes
everybody, and whoever gives up goes. -/
def act (q : Fifo) : Act α → Fifo
  | .register c =>
    { registered := q.registered ++ [(q.registered.length + 1, c)]
      waiting := q.waiting ++ [(q.registered.length + 1, c)] }
  | .complete c _ =>
    match (q.line c).head? with
    | none => q
    | some t => q.drop t
  | .failAll => { q with waiting := [] }
  | .release t => q.drop t
  | .withdraw t => q.drop t

def run (acts : List (Act α)) : Fifo := acts.foldl act {}

variable {q : Fifo} {t : Ticket} {c : String}

theorem registered_complete (q : Fifo) (c : String) (v : α) : (q.act (.complete c v)).registered = q.registered := by
  simp only [act]
  cases (q.line c).head? <;> rfl

theorem registered_prefix_act (q : Fifo) (a : Act α) : q.registered <+: (q.act a).registered := by
  cases a with
  | register c => exact List.prefix_append _ _
  | complete c v => exact (registered_complete q c v).symm ▸ List.prefix_refl _
  | _ => exact List.prefix_refl _

theorem mem_line : t ∈ q.line c ↔ (t, c) ∈ q.waiting := by
  simp [line]

theorem mem_drop {w : Ticket × String} : w ∈ (q.drop t).waiting ↔ w ∈ q.waiting ∧ w.1 ≠ t := by
  simp [drop]

/-- Tickets are the numbers from 1 on, in the order in which the waiters came. -/
structure Numbered (q : Fifo) : Prop where
  tickets : q.registered.map (·.1) = List.range' 1 q.registered.length
  waiting : q.waiting.Sublist q.registered

namespace Numbered

theorem nodup (h : q.Numbered) : (q.registered.map (·.1)).Nodup := by
  rw [h.tickets]
  exact List.nodup_range'

/-- A waiter has one command. -/
theorem command_unique (h : q.Numbered) {c' : String} (hc : (t, c) ∈ q.registered)
    (hc' : (t, c') ∈ q.registered) : c = c' :=
  Option.some.inj ((lookup_of_mem h.nodup hc).symm.trans (lookup_of_mem h.nodup hc'))

/-- The next ticket is nobody's. -/
theorem next_notMem (h : q.Numbered) : q.registered.length + 1 ∉ q.registered.map (·.1) := by
  rw [h.tickets, List.mem_range'_1]
  omega

/-- Along a line the tickets grow. -/
theorem sorted_line (h : q.Numbered) (c : String) : (q.line c).Pairwise (· < ·) := by
  have hall : (q.registered.map (·.1)).Pairwise (· < ·) := by
    rw [h.tickets]
    exact List.pairwise_lt_range'
  exact hall.sublist ((List.filter_sublist.trans h.waiting).map _)

theorem drop (h : q.Numbered) (t : Ticket) : (q.drop t).Numbered where
  tickets := h.tickets
  waiting := List.filter_sublist.trans h.waiting

theorem act (h : q.Numbered) (a : Act α) : (q.act a).Numbered := by
  cases a with
  | register c =>
    refine ⟨?_, h.waiting.append (List.Sublist.refl _)⟩
    simp only [Fifo.act, List.map_append, h.tickets, List.length_append, List.map_cons, List.map_nil,
      List.length_cons, List.length_nil, List.range'_1_concat, Nat.add_comm 1]
  | complete c v =>
    simp only [Fifo.act]
    cases (q.line c).head? with
    | none => exact h
    | some t => exact h.drop t
  | failAll => exact ⟨h.tickets, List.nil_sublist _⟩
  | release t => exact h.drop t
  | withdraw t => exact h.drop t

end Numbered
end Fifo

/-! ### The table serves the queues -/

/-- The table and what is due, beside the queues. -/
structure Serves (g : Guarded α) (q : Fifo) : Prop where
  sound : g.table.Sound
  numbered : q.Numbered
  next : g.table.nextTicket = q.registered.length + 1
  /-- A slot that is there is still to be withdrawn. -/
  queued : ∀ c, ∀ t ∈ g.table.queue c, (t, c) ∈ g.due
  due : ∀ w ∈ g.due, w ∈ q.registered
  single : (g.due.map (·.1)).Nodup
  /-- A key stays no longer than withdrawals of its command are due. -/
  keyed : ∀ c ∈ g.table.slots.map (·.1), ∃ t, (t, c) ∈ g.due
  waits : ∀ t, g.table.receiver? t = some .waiting ↔ ∃ c, (t, c) ∈ q.waiting

variable {g : Guarded α} {q : Fifo} {p : Pending α} {t : Ticket} {c : String}

theorem map_orphaned {r : Option (Receiver α)} (h : r ≠ some .waiting) : r.map orphaned = r := by
  rcases r with _ | _ | _ | _
  · rfl
  · exact absurd rfl h
  · rfl
  · rfl

theorem mem_keys_complete {c' : String} {v : α} (h : c' ∈ (p.complete c v).2.slots.map (·.1)) :
    c' ∈ p.slots.map (·.1) := by
  unfold complete at h
  split at h
  · exact h
  · next l hl =>
    have hc : c ∈ p.slots.map (·.1) := List.mem_map_of_mem (mem_of_lookup hl)
    split at h
    all_goals
      rcases mem_map_fst_assign.mp h with rfl | h
      · exact hc
      · exact h

/-- A withdrawal leaves no key of an empty queue. -/
theorem mem_keys_withdraw {c' : String} (h : c' ∈ (p.withdraw c t).slots.map (·.1)) :
    c' ∈ p.slots.map (·.1) ∧ (c' = c → (p.withdraw c t).queue c ≠ []) := by
  rw [queue_withdraw, if_pos rfl]
  unfold withdraw at h
  split at h
  · next hnone =>
    refine ⟨h, ?_⟩
    rintro rfl
    obtain ⟨e, he, rfl⟩ := List.mem_map.mp h
    exact absurd rfl (bne_iff_ne.mp (List.lookup_eq_none_iff.mp hnone e he))
  · next l hl =>
    rw [queue_of_lookup hl]
    simp only at h
    split at h
    · obtain ⟨e, he, rfl⟩ := List.mem_map.mp h
      obtain ⟨he, hne⟩ := List.mem_filter.mp he
      exact ⟨List.mem_map_of_mem he, fun hc => absurd hc (bne_iff_ne.mp hne)⟩
    · next hrest =>
      refine ⟨?_, fun _ hnil => hrest (List.isEmpty_iff.mpr hnil)⟩
      rcases mem_map_fst_assign.mp h with rfl | h
      · exact List.mem_map_of_mem (mem_of_lookup hl)
      · exact h

namespace Serves

/-- A waiter stands in the queue of its command. -/
theorem mem_queue (h : Serves g q) (ht : (t, c) ∈ q.waiting) : t ∈ g.table.queue c := by
  obtain ⟨c', hc'⟩ := h.sound.placed t ((h.waits t).mpr ⟨c, ht⟩)
  have := h.numbered.command_unique (h.numbered.waiting.subset ht) (h.due _ (h.queued c' t hc'))
  rwa [this]

/-- The live slots of a command are the waiters of its line, in the same order. -/
theorem live_eq_line (h : Serves g q) (c : String) : (g.table.queue c).filter g.table.isLive = q.line c := by
  refine List.Pairwise.eq_of_mem_iff ((h.sound.sorted c).filter _) (h.numbered.sorted_line c) fun t => ?_
  rw [List.mem_filter, isLive_iff, h.waits, Fifo.mem_line]
  constructor
  · rintro ⟨hqueue, c', hc'⟩
    have := h.numbered.command_unique (h.due _ (h.queued c t hqueue)) (h.numbered.waiting.subset hc')
    rwa [this]
  · exact fun ht => ⟨h.mem_queue ht, c, ht⟩

/-- A reply finds the first of the line. -/
theorem head?_reached (h : Serves g q) (c : String) : (g.table.reached c).head? = (q.line c).head? := by
  rw [← h.live_eq_line, List.head?_filter, List.find?_eq_head?_dropWhile_not]
  rfl

/-- The first of the line gets the value of a reply, and nobody else gets anything. -/
theorem receiver?_reply (h : Serves g q) (c : String) (v : α) (t : Ticket) :
    (g.table.complete c v).2.receiver? t =
      if (q.line c).head? = some t then some (.answered v) else g.table.receiver? t := by
  rw [receiver?_complete, h.head?_reached]
  split
  · next hhead =>
    rw [(h.waits t).mpr ⟨c, Fifo.mem_line.mp (List.mem_of_head? hhead)⟩, Option.map_some]
  · rfl

theorem receiver?_failure (h : Serves g q) (t : Ticket) :
    g.table.failAll.receiver? t = if g.table.isLive t then some .failed else g.table.receiver? t := by
  rw [h.sound.receiver?_failAll]
  split
  · next hlive => rw [(isLive_iff ..).mp hlive, Option.map_some, orphaned]
  · next hlive => exact map_orphaned fun hw => hlive ((isLive_iff ..).mpr hw)

theorem waits_drop (h : Serves g q) (ht : p.receiver? t ≠ some .waiting)
    (hu : ∀ u, u ≠ t → p.receiver? u = g.table.receiver? u) (u : Ticket) :
    p.receiver? u = some .waiting ↔ ∃ c, (u, c) ∈ (q.drop t).waiting := by
  simp only [Fifo.mem_drop]
  by_cases hut : u = t
  · subst hut
    exact ⟨fun hw => absurd hw ht, fun ⟨_, _, hne⟩ => absurd rfl hne⟩
  · simp only [hu u hut, h.waits, hut, ne_eq, not_false_eq_true, and_true]

theorem register (h : Serves g q) (c : String) : Serves (g.act (.register c)) (q.act (.register c : Act α)) where
  sound := h.sound.register c
  numbered := h.numbered.act _
  next := by
    simp only [Guarded.act, Fifo.act, nextTicket_register, h.next, List.length_append, List.length_singleton]
  queued := by
    intro c' t ht
    simp only [Guarded.act, queue_register] at ht
    split at ht
    · next e =>
      subst e
      refine List.mem_append.mpr ((List.mem_append.mp ht).imp (h.queued c' t) fun ht => ?_)
      rw [List.mem_singleton.mp ht]
      exact List.mem_singleton_self _
    · exact List.mem_append_left _ (h.queued c' t ht)
  due := by
    intro w hw
    refine List.mem_append.mpr ((List.mem_append.mp hw).imp (h.due w) fun hw => ?_)
    rw [← h.next]
    exact hw
  single := by
    simp only [Guarded.act, List.map_append, List.map_cons, List.map_nil]
    refine List.nodup_append.mpr ⟨h.single, List.nodup_singleton _, ?_⟩
    rintro u hu v hv rfl
    obtain ⟨w, hw, rfl⟩ := List.mem_map.mp hu
    have hnext : w.1 = q.registered.length + 1 := (List.mem_singleton.mp hv).trans h.next
    exact h.numbered.next_notMem (hnext ▸ List.mem_map_of_mem (h.due w hw))
  keyed := by
    intro c' hc'
    rcases mem_map_fst_assign.mp hc' with rfl | hc'
    · exact ⟨_, List.mem_append_right _ (List.mem_singleton_self _)⟩
    · obtain ⟨t, ht⟩ := h.keyed c' hc'
      exact ⟨t, List.mem_append_left _ ht⟩
  waits := by
    intro t
    simp only [Guarded.act, Fifo.act, receiver?_register _ _ _ h.sound.next_free, List.mem_append,
      List.mem_singleton, Prod.mk.injEq, ← h.next]
    split
    · next ht => exact ⟨fun _ => ⟨c, Or.inr ⟨ht, rfl⟩⟩, fun _ => rfl⟩
    · next ht => simp only [h.waits, ht, false_and, or_false]

theorem complete (h : Serves g q) (c : String) (v : α) :
    Serves (g.act (.complete c v)) (q.act (.complete c v)) where
  sound := h.sound.complete c v
  numbered := h.numbered.act _
  next := by
    rw [Fifo.registered_complete]
    exact (nextTicket_complete ..).trans h.next
  queued := fun c' t ht => h.queued c' t (mem_queue_complete ht)
  due := by
    rw [Fifo.registered_complete]
    exact h.due
  single := h.single
  keyed := fun c' hc' => h.keyed c' (mem_keys_complete hc')
  waits := by
    have hreply := h.receiver?_reply c v
    simp only [Guarded.act, Fifo.act]
    cases hhead : (q.line c).head? with
    | none =>
      simp only [hhead, reduceCtorEq, if_false] at hreply
      simp only [hreply]
      exact h.waits
    | some t =>
      simp only [hhead, Option.some.injEq] at hreply
      refine h.waits_drop ?_ fun u hu => (hreply u).trans (if_neg (Ne.symm hu))
      simp only [hreply, if_true, ne_eq, Option.some.injEq, reduceCtorEq, not_false_eq_true]

theorem failAll (h : Serves g q) : Serves (g.act .failAll) (q.act (.failAll : Act α)) where
  sound := h.sound.failAll
  numbered := h.numbered.act _
  next := h.next
  queued := fun _ _ ht => by cases ht
  due := h.due
  single := h.single
  keyed := fun _ hc => by cases hc
  waits := by
    intro t
    simp only [Guarded.act, Fifo.act, h.sound.receiver?_failAll, List.not_mem_nil, exists_false, iff_false]
    rcases g.table.receiver? t with _ | _ | _ | _ <;> simp [orphaned]

theorem release (h : Serves g q) (t : Ticket) : Serves (g.act (.release t)) (q.act (.release t : Act α)) where
  sound := h.sound.release t
  numbered := h.numbered.drop t
  next := h.next
  queued := h.queued
  due := h.due
  single := h.single
  keyed := h.keyed
  waits := by
    refine h.waits_drop ?_ fun u hu => (receiver?_release _ _ _).trans (if_neg hu)
    simp only [Guarded.act, receiver?_release, if_true, ne_eq, reduceCtorEq, not_false_eq_true]

/-- A withdrawal takes one ticket out, wherever it stands, and moves no other. -/
theorem queue_act_withdraw (h : Serves g q) (t : Ticket) (c : String) :
    (g.act (.withdraw t)).table.queue c = (g.table.queue c).filter (· != t) := by
  have hother : ∀ c', g.due.lookup t ≠ some c' → (g.table.queue c').filter (· != t) = g.table.queue c' := by
    intro c' hne
    refine List.filter_eq_self.mpr fun u hu => bne_iff_ne.mpr ?_
    rintro rfl
    exact hne (lookup_of_mem h.single (h.queued c' u hu))
  simp only [Guarded.act]
  cases hdue : g.due.lookup t with
  | none => exact (hother c (hdue ▸ nofun)).symm
  | some c' =>
    simp only [queue_withdraw]
    split
    · next e => rw [e]
    · next hne =>
      refine (hother c fun e => hne ?_).symm
      exact Option.some.inj (e.symm.trans hdue)

theorem withdraw (h : Serves g q) (t : Ticket) : Serves (g.act (.withdraw t)) (q.act (.withdraw t : Act α)) := by
  have hqueue : ∀ c u, u ∈ (g.act (.withdraw t)).table.queue c → u ∈ g.table.queue c ∧ u ≠ t := by
    intro c u hu
    rw [h.queue_act_withdraw] at hu
    exact (List.mem_filter.mp hu).imp_right bne_iff_ne.mp
  simp only [Guarded.act, Fifo.act] at hqueue ⊢
  cases hdue : g.due.lookup t with
  | none =>
    -- who waits has a slot, and that is due
    have hgone : g.table.receiver? t ≠ some .waiting := by
      intro hw
      obtain ⟨c, hc⟩ := h.sound.placed t hw
      exact absurd rfl (bne_iff_ne.mp (List.lookup_eq_none_iff.mp hdue _ (h.queued c t hc)))
    exact { h with
      numbered := h.numbered.drop t
      waits := h.waits_drop hgone fun _ _ => rfl }
  | some c =>
    rw [hdue] at hqueue
    have hkeep : ∀ {u c'}, (u, c') ∈ g.due → u ≠ t → (u, c') ∈ g.due.filter (·.1 != t) :=
      fun hu hne => List.mem_filter.mpr ⟨hu, bne_iff_ne.mpr hne⟩
    exact {
      sound := h.sound.withdraw c t
      numbered := h.numbered.drop t
      next := (nextTicket_withdraw ..).trans h.next
      queued := fun c' u hu => hkeep (h.queued c' u (hqueue c' u hu).1) (hqueue c' u hu).2
      due := fun w hw => h.due w (List.mem_of_mem_filter hw)
      single := nodup_map_fst_filter h.single _
      keyed := by
        intro c' hc'
        obtain ⟨hc', hrest⟩ := mem_keys_withdraw hc'
        by_cases hne : c' = c
        · -- what is left in the queue is still due
          obtain ⟨u, hu⟩ := List.exists_mem_of_ne_nil _ (hrest hne)
          obtain ⟨hu, hut⟩ := hqueue c u hu
          exact ⟨u, hkeep (hne ▸ h.queued c u hu) hut⟩
        · obtain ⟨u, hu⟩ := h.keyed c' hc'
          refine ⟨u, hkeep hu ?_⟩
          rintro rfl
          exact hne (Option.some.inj ((lookup_of_mem h.single hu).symm.trans hdue))
      waits := by
        refine h.waits_drop (fun hw => ?_) fun u hu => ?_
        · obtain ⟨c', hc'⟩ := (h.sound.withdraw c t).placed t hw
          exact (hqueue c' t hc').2 rfl
        · rw [receiver?_withdraw, if_neg fun hut => hu hut.1] }

/-- One act keeps the table and the queues together. -/
theorem act (h : Serves g q) (a : Act α) : Serves (g.act a) (q.act a) := by
  cases a with
  | register c => exact h.register c
  | complete c v => exact h.complete c v
  | failAll => exact h.failAll
  | release t => exact h.release t
  | withdraw t => exact h.withdraw t

theorem empty : Serves ({} : Guarded α) {} where
  sound := .empty
  numbered := ⟨rfl, List.Sublist.refl _⟩
  next := rfl
  queued := fun _ _ h => by cases h
  due := fun _ h => by cases h
  single := List.nodup_nil
  keyed := fun _ h => by cases h
  waits := by
    intro t
    constructor
    · intro h
      cases h
    · rintro ⟨_, h⟩
      cases h

theorem run (h : Serves g q) (acts : List (Act α)) : Serves (acts.foldl Guarded.act g) (acts.foldl Fifo.act q) := by
  induction acts generalizing g q with
  | nil => exact h
  | cons a acts ih => exact ih (h.act a)

/-- A reply is for somebody who waits for its command, if there is anybody. -/
theorem complete_eq_true_iff (h : Serves g q) (c : String) (v : α) :
    (g.table.complete c v).1 = true ↔ ∃ t, (t, c) ∈ q.registered ∧ g.table.isLive t = true := by
  rw [complete_fst, h.head?_reached, List.isSome_head?]
  simp only [isLive_iff, h.waits]
  constructor
  · intro hne
    obtain ⟨t, ht⟩ := List.exists_mem_of_ne_nil _ hne
    exact ⟨t, h.numbered.waiting.subset (Fifo.mem_line.mp ht), c, Fifo.mem_line.mp ht⟩
  · rintro ⟨t, hreg, c', hc'⟩
    have := h.numbered.command_unique hreg (h.numbered.waiting.subset hc')
    exact List.ne_nil_of_mem (Fifo.mem_line.mpr (this ▸ hc'))

/-- What a waiter got stays as it is until the waiter gives up its receiver. -/
theorem settled_act (h : Serves g q) (a : Act α) (ht : t ∈ q.registered.map (·.1))
    (hs : g.table.receiver? t ≠ some .waiting) :
    (g.act a).table.receiver? t = g.table.receiver? t ∨ (g.act a).table.receiver? t = none := by
  cases a with
  | register c =>
    have hne : t ≠ g.table.nextTicket := by
      rintro rfl
      exact h.numbered.next_notMem (h.next ▸ ht)
    exact Or.inl ((receiver?_register _ _ _ h.sound.next_free).trans (if_neg hne))
  | complete c v =>
    refine Or.inl ((receiver?_complete ..).trans (if_neg fun hhead => ?_))
    exact hs (waiting_of_head_reached hhead)
  | failAll => exact Or.inl ((h.sound.receiver?_failAll t).trans (map_orphaned hs))
  | release u =>
    simp only [Guarded.act, receiver?_release]
    split
    · exact Or.inr rfl
    · exact Or.inl rfl
  | withdraw u =>
    simp only [Guarded.act]
    cases g.due.lookup u with
    | none => exact Or.inl rfl
    | some c =>
      simp only [receiver?_withdraw, map_orphaned hs, ite_self, true_or]

theorem settled_run (h : Serves g q) (more : List (Act α)) (ht : t ∈ q.registered.map (·.1))
    (hs : g.table.receiver? t ≠ some .waiting) :
    (more.foldl Guarded.act g).table.receiver? t = g.table.receiver? t ∨
      (more.foldl Guarded.act g).table.receiver? t = none := by
  induction more generalizing g q with
  | nil => exact Or.inl rfl
  | cons a more ih =>
    have ht' := ((Fifo.registered_prefix_act q a).map _).subset ht
    rcases h.settled_act a ht hs with hone | hone
    · rw [← hone]
      exact ih (h.act a) ht' (hone ▸ hs)
    · rcases ih (h.act a) ht' (hone ▸ nofun) with hall | hall
      · exact Or.inr (hall.trans hone)
      · exact Or.inr hall

theorem receiver?_act_withdraw (g : Guarded α) {u : Ticket} (hu : u ≠ t) :
    (g.act (.withdraw t)).table.receiver? u = g.table.receiver? u := by
  simp only [Guarded.act]
  cases g.due.lookup t with
  | none => rfl
  | some c => exact (receiver?_withdraw ..).trans (if_neg fun hut => hu hut.1)

theorem slots_eq_nil (h : Serves g q) (hdue : g.due = []) : g.table.slots = [] := by
  refine List.eq_nil_iff_forall_not_mem.mpr fun e he => ?_
  obtain ⟨t, ht⟩ := h.keyed e.1 (List.mem_map_of_mem he)
  rw [hdue] at ht
  cases ht

end Serves

/-- Whatever was done to a table, in whatever order, it is a queue of live waiters for each command.

A reply is taken if there is a live waiter for its command. The oldest of them gets it, and nobody else gets
anything. A failure reaches everybody who still waits. A slot that is withdrawn, however late, leaves the
other slots in their order and the other receivers alone. Nobody gets a second outcome, and when nothing is
left to be withdrawn there is no key. The tickets are the numbers from 1 on: with fewer than `2 ^ 64` waiters
each of them fits 64 bits. -/
theorem table_serves_live_waiters (acts : List (Act α)) :
    let g := Guarded.run acts
    let q := Fifo.run acts
    (q.registered.map (·.1) = List.range' 1 q.registered.length ∧
      g.table.nextTicket = q.registered.length + 1) ∧
    (∀ c, (g.table.queue c).filter g.table.isLive = q.line c) ∧
    (∀ c v,
      ((g.table.complete c v).1 = true ↔
        ∃ t, (t, c) ∈ q.registered ∧ g.table.isLive t = true) ∧
      ∀ t, (g.table.complete c v).2.receiver? t =
        if (q.line c).head? = some t then some (.answered v) else g.table.receiver? t) ∧
    (∀ t, g.table.failAll.receiver? t =
      if g.table.isLive t then some .failed else g.table.receiver? t) ∧
    (∀ t c, (g.act (.withdraw t)).table.queue c = (g.table.queue c).filter (· != t)) ∧
    (∀ t u, u ≠ t → (g.act (.withdraw t)).table.receiver? u = g.table.receiver? u) ∧
    (∀ t more, t ∈ q.registered.map (·.1) → g.table.isLive t = false →
      (Guarded.run (acts ++ more)).table.receiver? t = g.table.receiver? t ∨
        (Guarded.run (acts ++ more)).table.receiver? t = none) ∧
    (g.due = [] → g.table.slots = []) := by
  intro g q
  have h : Serves g q := Serves.empty.run acts
  refine ⟨⟨h.numbered.tickets, h.next⟩, h.live_eq_line,
    fun c v => ⟨h.complete_eq_true_iff c v, h.receiver?_reply c v⟩, h.receiver?_failure,
    h.queue_act_withdraw, fun t u hu => Serves.receiver?_act_withdraw g hu, ?_, h.slots_eq_nil⟩
  intro t more ht hs
  rw [Guarded.run_append]
  refine h.settled_run more ht fun hw => ?_
  rw [(isLive_iff ..).mpr hw] at hs
  cases hs

/-- A waiter that came after a failure keeps its place when the slots of those before it go, and gets the
next reply. -/
theorem late_withdrawals_spare_new_waiter :
    let g : Guarded Nat := Guarded.run [.register "version", .register "version", .release 1,
      .complete "version" 7, .failAll, .register "version", .withdraw 1]
    g.table.receiver? 2 = some (.answered 7) ∧
    (g.act (.withdraw 2)).table.queue "version" = [3] ∧
    (g.table.complete "version" 8).2.receiver? 3 = some (.answered 8) := by
  obtain ⟨_, _, hcomplete, _, hwithdraw, _⟩ := table_serves_live_waiters (α := Nat)
    [.register "version", .register "version", .release 1, .complete "version" 7, .failAll,
      .register "version", .withdraw 1]
  refine ⟨rfl, (hwithdraw 2 "version").trans (by decide), ((hcomplete "version" 8).2 3).trans (if_pos ?_)⟩
  decide

end Pending
end RemoteDebug.Engine
