import RemoteDebug.Proofs.Change

/-! What holds of the calls, the registry and the tables of a session at every moment.

Whoever waits holds what its request needs alone, so that no two exchanges of one
tab are under way at a time, and no attach is asked for while the tab is
attached. Each receiver belongs to one waiting call, and a call that still waits
has its place in the queue of its command. A registered instance has the id that
it is registered under. -/
namespace RemoteDebug.Engine
open Protocol Wire

namespace View

/-- A call waits with a ticket at a desk. -/
def Waits (v : View) (c : Call) (d : Desk) (k : Ticket) : Prop :=
  c ∈ v.calls ∧ c.request.desk = d ∧ ∃ deadline, c.point = .awaiting k deadline

/-- A call comes first for what its request needs alone. -/
def Holds (v : View) (c : Call) : Prop :=
  ∀ n, c.request.need? = some n → (v.lock n).head? = some c.id

structure Sound (v : View) : Prop where
  ids : (v.calls.map (·.id)).Nodup
  /-- The tab of a call exists. -/
  present : ∀ c ∈ v.calls, ∀ t, c.request.tab? = some t → (v.ident t).isSome = true
  holder : ∀ c d k, v.Waits c d k → v.Holds c
  unattached : ∀ c d k t l, v.Waits c d k → c.request = .attach t l → v.attached t = false
  /-- An attached tab has a listener, and so has one whose attach is asked for. -/
  listening : ∀ t, v.attached t = true → (v.listener t).isSome = true
  hearing : ∀ c d k t l, v.Waits c d k → c.request = .attach t l → (v.listener t).isSome = true
  keys : (v.registry.map (·.1)).Nodup
  own : ∀ id t, (id, t) ∈ v.registry → v.ident t = some id
  boards : ∀ d, (v.board d).Sound
  /-- A waiting call has a receiver, and its place as long as it hears nothing. -/
  seat : ∀ c d k, v.Waits c d k → ∃ r, (v.board d).receiver? k = some r ∧
    (r = .waiting → k ∈ (v.board d).queue c.request.command)
  /-- Nobody else has a receiver. -/
  owned : ∀ d k r, (v.board d).receiver? k = some r → ∃ c, v.Waits c d k
  apart : ∀ c c' d k, v.Waits c d k → v.Waits c' d k → c = c'

variable {v : View}

/-! ### Calls -/

theorem Sound.call_eq (h : v.Sound) {c c' : Call} (hc : c ∈ v.calls) (hc' : c' ∈ v.calls)
    (hid : c.id = c'.id) : c = c' :=
  List.inj_on_of_nodup_map h.ids hc hc' hid

/-- Two calls that need the same thing alone do not both hold it. -/
theorem Sound.exclusive (h : v.Sound) {c c' : Call} {n : Need} (hc : c ∈ v.calls)
    (hc' : c' ∈ v.calls) (hh : v.Holds c) (hh' : v.Holds c') (hn : c.request.need? = some n)
    (hn' : c'.request.need? = some n) : c = c' := by
  have hid := (hh n hn).symm.trans (hh' n hn')
  exact h.call_eq hc hc' (Option.some.inj hid)

/-- The calls and the locks change, but not who waits. -/
theorem Sound.recall (h : v.Sound) (calls : List Call) (lock : Need → List CallId)
    (ids : (calls.map (·.id)).Nodup)
    (present : ∀ c ∈ calls, ∀ t, c.request.tab? = some t → (v.ident t).isSome = true)
    (waits : ∀ c d k, { v with calls, lock }.Waits c d k ↔ v.Waits c d k)
    (holder : ∀ c d k, v.Waits c d k → { v with calls, lock }.Holds c) :
    { v with calls, lock }.Sound where
  ids := ids
  present := present
  holder := fun c d k hw => holder c d k ((waits c d k).mp hw)
  unattached := fun c d k t l hw => h.unattached c d k t l ((waits c d k).mp hw)
  listening := h.listening
  hearing := fun c d k t l hw => h.hearing c d k t l ((waits c d k).mp hw)
  keys := h.keys
  own := h.own
  boards := h.boards
  seat := fun c d k hw => h.seat c d k ((waits c d k).mp hw)
  owned := fun d k r hr => by
    obtain ⟨c, hc⟩ := h.owned d k r hr
    exact ⟨c, (waits c d k).mpr hc⟩
  apart := fun c c' d k hw hw' => h.apart c c' d k ((waits c d k).mp hw) ((waits c' d k).mp hw')

theorem Sound.opened (h : v.Sound) {c : Call} (idle : c.Idle) (new : ∀ x ∈ v.calls, x.id ≠ c.id)
    (tab : ∀ t, c.request.tab? = some t → (v.ident t).isSome = true) :
    { v with calls := v.calls ++ [c] }.Sound := by
  refine h.recall (v.calls ++ [c]) v.lock ?_ ?_ ?_ h.holder
  · rw [List.map_append, List.nodup_append]
    refine ⟨h.ids, by simp, ?_⟩
    rintro a ha b hb rfl
    obtain ⟨x, hx, rfl⟩ := List.mem_map.mp ha
    exact new x hx (by simpa using hb)
  · intro x hx
    rcases List.mem_append.mp hx with hx | hx
    · exact h.present x hx
    · exact List.mem_singleton.mp hx ▸ tab
  · intro x d k
    refine ⟨fun ⟨hx, hd, dl, hp⟩ => ⟨?_, hd, dl, hp⟩,
      fun ⟨hx, hw⟩ => ⟨List.mem_append_left _ hx, hw⟩⟩
    rcases List.mem_append.mp hx with hx | hx
    · exact hx
    · exact absurd hp (List.mem_singleton.mp hx ▸ idle k dl)

theorem lock_changeLock (v : View) (r : Request) (f : List CallId → List CallId) (n : Need) :
    (v.changeLock r f).lock n = if r.need? = some n then f (v.lock n) else v.lock n := by
  unfold changeLock
  cases hr : r.need? with
  | none => simp
  | some m =>
    show Function.update v.lock m (f (v.lock m)) n = _
    rw [Function.update_apply]
    by_cases hn : n = m
    · simp [hn]
    · simp [hn, Ne.symm hn]

theorem changeLock_eq (v : View) (r : Request) (f : List CallId → List CallId) :
    v.changeLock r f = { v with lock := (v.changeLock r f).lock } := by
  unfold changeLock
  cases r.need? <;> rfl

/-- A call that takes the last place in a queue takes the first one from nobody. -/
theorem Sound.lined (h : v.Sound) (r : Request) (id : CallId) :
    (v.changeLock r (· ++ [id])).Sound := by
  rw [changeLock_eq]
  refine h.recall v.calls _ h.ids h.present (fun _ _ _ => Iff.rfl) ?_
  intro c d k hw n hn
  have hh := h.holder c d k hw n hn
  show ((v.changeLock r (· ++ [id])).lock n).head? = _
  rw [lock_changeLock]
  split
  · rw [List.head?_append, hh]
    rfl
  · exact hh

theorem head?_filter_of_head? {q : List CallId} {a : CallId} {p : CallId → Bool} (h : q.head? = some a)
    (hp : p a = true) : (q.filter p).head? = some a := by
  cases q with
  | nil => cases h
  | cons b q =>
    obtain rfl : b = a := Option.some.inj h
    rw [List.filter_cons_of_pos hp]
    rfl

/-- Without one call, the others hold what they held. -/
theorem Holds.retire {c x : Call} (hh : v.Holds x) (hne : x.id ≠ c.id) : (v.retire c).Holds x := by
  intro n hn
  unfold View.retire
  rw [lock_changeLock]
  split
  · exact head?_filter_of_head? (hh n hn) (by simpa using hne)
  · exact hh n hn

theorem retire_eq (v : View) (c : Call) :
    v.retire c = { v with calls := v.calls.filter (·.id != c.id), lock := (v.retire c).lock } := by
  unfold retire
  rw [changeLock_eq]

theorem mem_retire {c x : Call} : x ∈ (v.retire c).calls ↔ x ∈ v.calls ∧ x.id ≠ c.id := by
  rw [retire_eq]
  show x ∈ v.calls.filter (·.id != c.id) ↔ _
  rw [List.mem_filter, bne_iff_ne]

theorem Sound.retired (h : v.Sound) {c : Call} (hc : c ∈ v.calls) (idle : c.Idle) :
    (v.retire c).Sound := by
  have others : ∀ x d k, v.Waits x d k → x.id ≠ c.id := by
    rintro x d k ⟨hx, _, dl, hp⟩ hid
    obtain rfl := h.call_eq hx hc hid
    exact idle k dl hp
  rw [retire_eq]
  refine h.recall _ _ ?_ ?_ ?_ ?_
  · exact h.ids.sublist (List.filter_sublist.map _)
  · exact fun x hx => h.present x (List.mem_of_mem_filter hx)
  · intro x d k
    refine ⟨fun ⟨hx, hw⟩ => ⟨List.mem_of_mem_filter hx, hw⟩, fun hw => ⟨?_, hw.2⟩⟩
    exact List.mem_filter.mpr ⟨hw.1, bne_iff_ne.mpr (others x d k hw)⟩
  · intro x d k hw n hn
    exact (h.holder x d k hw).retire (others x d k hw) n hn

theorem map_id_setPoint (v : View) (id : CallId) (p : Point) :
    (v.setPoint id p).calls.map (·.id) = v.calls.map (·.id) := by
  show (v.calls.map _).map _ = _
  rw [List.map_map]
  apply List.map_congr_left
  intro x _
  simp only [Function.comp_apply]
  split <;> rfl

/-- The calls after one of them has come to another point. -/
theorem mem_setPoint {id : CallId} {p : Point} {x : Call} :
    x ∈ (v.setPoint id p).calls ↔
      (x ∈ v.calls ∧ x.id ≠ id) ∨
        (x.id = id ∧ x.point = p ∧ ∃ y ∈ v.calls, y.id = id ∧ y.request = x.request) := by
  show x ∈ v.calls.map _ ↔ _
  rw [List.mem_map]
  constructor
  · rintro ⟨y, hy, rfl⟩
    split
    · next hid => exact Or.inr ⟨hid, rfl, y, hy, hid, rfl⟩
    · next hid => exact Or.inl ⟨hy, hid⟩
  · rintro (⟨hx, hid⟩ | ⟨hid, hp, y, hy, hyid, hyr⟩)
    · exact ⟨x, hx, if_neg hid⟩
    · refine ⟨y, hy, ?_⟩
      rw [if_pos hyid]
      cases x
      cases y
      simp_all

/-- A call goes to wait in a queue. -/
theorem Sound.queued (h : v.Sound) {c : Call} (hc : c ∈ v.calls) (idle : c.Idle) :
    (v.setPoint c.id .queued).Sound := by
  refine h.recall _ v.lock (map_id_setPoint v c.id .queued ▸ h.ids) ?_ ?_ h.holder
  · intro x hx
    rcases mem_setPoint.mp hx with ⟨hx, _⟩ | ⟨_, _, y, hy, _, hr⟩
    · exact h.present x hx
    · exact hr ▸ h.present y hy
  · intro x d k
    constructor
    · rintro ⟨hx, hd, dl, hp⟩
      rcases mem_setPoint.mp hx with ⟨hx, _⟩ | ⟨_, hq, _⟩
      · exact ⟨hx, hd, dl, hp⟩
      · rw [hq] at hp
        cases hp
    · rintro ⟨hx, hd, dl, hp⟩
      have hne : x.id ≠ c.id := fun hid => idle k dl (h.call_eq hx hc hid ▸ hp)
      exact ⟨mem_setPoint.mpr (Or.inl ⟨hx, hne⟩), hd, dl, hp⟩

/-! ### Tables -/

/-- A table changes, and with it neither who has a receiver nor, for the rest, who has a place. -/
theorem Sound.tabled (h : v.Sound) {d : Desk} {p : Pending Unit} (sound : p.Sound)
    (receivers : ∀ k, (p.receiver? k).isSome = ((v.board d).receiver? k).isSome)
    (places : ∀ k c, p.receiver? k = some .waiting → k ∈ (v.board d).queue c → k ∈ p.queue c)
    (silence : ∀ k, p.receiver? k = some .waiting → (v.board d).receiver? k = some .waiting) :
    (v.setBoard d p).Sound := by
  have board : ∀ d', (v.setBoard d p).board d' = if d' = d then p else v.board d' := fun d' =>
    Function.update_apply _ _ _ _
  refine { h with boards := ?_, seat := ?_, owned := ?_ }
  · intro d'
    rw [board]
    split
    · exact sound
    · exact h.boards d'
  · intro c d' k hw
    obtain ⟨r, hr, hq⟩ := h.seat c d' k hw
    rw [board]
    split
    · next hd =>
      subst hd
      have hs := receivers k
      rw [hr] at hs
      obtain ⟨r', hr'⟩ := Option.isSome_iff_exists.mp hs
      refine ⟨r', hr', ?_⟩
      rintro rfl
      have hold := silence k hr'
      rw [hr] at hold
      exact places k _ hr' (hq (Option.some.inj hold))
    · exact ⟨r, hr, hq⟩
  · intro d' k r hr
    rw [board] at hr
    split at hr
    · next hd =>
      subst hd
      have hs := receivers k
      rw [hr] at hs
      obtain ⟨r', hr'⟩ := Option.isSome_iff_exists.mp hs.symm
      exact h.owned d' k r' hr'
    · exact h.owned d' k r hr

theorem Sound.answered (h : v.Sound) (d : Desk) (command : String) :
    (v.setBoard d ((v.board d).complete command ()).2).Sound := by
  have hb := h.boards d
  refine h.tabled (hb.complete command ()) ?_ ?_ ?_
  · intro k
    rw [Pending.receiver?_complete]
    split
    · rw [Option.isSome_map]
    · rfl
  · intro k c hk hq
    obtain ⟨c', hc'⟩ := (hb.complete command ()).placed k hk
    have hold : k ∈ (v.board d).queue c' := by
      rw [Pending.queue_complete] at hc'
      split at hc'
      · next e => exact e ▸ (Pending.reached_suffix _ _).subset (List.mem_of_mem_tail hc')
      · exact hc'
    exact hb.unique c c' k hq hold ▸ hc'
  · intro k hk
    rw [Pending.receiver?_complete] at hk
    split at hk
    · next hh => exact Pending.waiting_of_head_reached hh
    · exact hk

theorem Sound.failed (h : v.Sound) (d : Desk) : (v.setBoard d (v.board d).failAll).Sound := by
  have hb := h.boards d
  have none_waits : ∀ k, (v.board d).failAll.receiver? k ≠ some .waiting := by
    intro k hk
    obtain ⟨c, hc⟩ := hb.failAll.placed k hk
    cases hc
  refine h.tabled hb.failAll ?_ (fun k _ hk => absurd hk (none_waits k))
    (fun k hk => absurd hk (none_waits k))
  intro k
  rw [hb.receiver?_failAll, Option.isSome_map]

theorem board_setBoard (v : View) (d d' : Desk) (p : Pending Unit) :
    (v.setBoard d p).board d' = if d' = d then p else v.board d' :=
  Function.update_apply _ _ _ _

/-! ### Taking a place and giving it up -/

/-- Who waits after a call has taken its place. -/
theorem Sound.waits_enter (h : v.Sound) {c x : Call} {dl : Nat} {d : Desk} {k : Ticket}
    (hc : c ∈ v.calls) :
    (v.enter c dl).Waits x d k ↔ (v.Waits x d k ∧ x.id ≠ c.id) ∨
      (x = { c with point := .awaiting (v.nextTicket c.request) dl } ∧
        d = c.request.desk ∧ k = v.nextTicket c.request) := by
  constructor
  · rintro ⟨hx, hd, dl', hp⟩
    rcases mem_setPoint.mp hx with ⟨hx, hne⟩ | ⟨hid, hp', y, hy, hyid, hyr⟩
    · exact Or.inl ⟨⟨hx, hd, dl', hp⟩, hne⟩
    · obtain rfl := h.call_eq hy hc hyid
      refine Or.inr ⟨?_, hyr ▸ hd.symm, ?_⟩
      · cases x
        cases y
        simp_all
      · rw [hp'] at hp
        cases hp
        rfl
  · rintro (⟨⟨hx, hd, hp⟩, hne⟩ | ⟨rfl, rfl, rfl⟩)
    · exact ⟨mem_setPoint.mpr (Or.inl ⟨hx, hne⟩), hd, hp⟩
    · exact ⟨mem_setPoint.mpr (Or.inr ⟨rfl, rfl, c, hc, rfl, rfl⟩), rfl, dl, rfl⟩

theorem board_enter (v : View) (c : Call) (dl : Nat) (d : Desk) : (v.enter c dl).board d =
    if d = c.request.desk then ((v.board c.request.desk).register c.request.command).2 else v.board d :=
  board_setBoard v _ d _

/-- The next ticket is nobody's. -/
theorem Sound.ne_nextTicket (h : v.Sound) {c x : Call} {k : Ticket} (hw : v.Waits x c.request.desk k) :
    k ≠ v.nextTicket c.request := by
  rintro rfl
  obtain ⟨r, hr, _⟩ := h.seat x _ _ hw
  have hfree : (v.board c.request.desk).receiver? (v.nextTicket c.request) = none :=
    (h.boards c.request.desk).next_free
  rw [hfree] at hr
  cases hr

theorem Sound.seat_enter (h : v.Sound) {c x : Call} {dl : Nat} {d : Desk} {k : Ticket}
    (hc : c ∈ v.calls) (hw : (v.enter c dl).Waits x d k) :
    ∃ r, ((v.enter c dl).board d).receiver? k = some r ∧
      (r = .waiting → k ∈ ((v.enter c dl).board d).queue x.request.command) := by
  have hb := h.boards c.request.desk
  rw [board_enter]
  rcases (h.waits_enter hc).mp hw with ⟨hw, hne⟩ | ⟨rfl, rfl, rfl⟩
  · obtain ⟨r, hr, hq⟩ := h.seat x d k hw
    split
    · next hd =>
      subst hd
      refine ⟨r, ?_, fun he => ?_⟩
      · have hk := h.ne_nextTicket hw
        exact (Pending.receiver?_register _ _ _ hb.next_free).trans ((if_neg hk).trans hr)
      · rw [Pending.queue_register]
        split
        · next e => exact List.mem_append_left _ (e ▸ hq he)
        · exact hq he
    · exact ⟨r, hr, hq⟩
  · rw [if_pos rfl]
    refine ⟨.waiting, ?_, fun _ => ?_⟩
    · exact (Pending.receiver?_register _ _ _ hb.next_free).trans (if_pos rfl)
    · rw [Pending.queue_register, if_pos rfl]
      exact List.mem_append_right _ (List.mem_singleton.mpr rfl)

theorem Sound.owned_enter (h : v.Sound) {c : Call} {dl : Nat} {d : Desk} {k : Ticket}
    {r : Receiver Unit} (hc : c ∈ v.calls) (idle : c.Idle)
    (hr : ((v.enter c dl).board d).receiver? k = some r) : ∃ x, (v.enter c dl).Waits x d k := by
  rw [board_enter] at hr
  have old : (v.board d).receiver? k = some r → ∃ x, (v.enter c dl).Waits x d k := by
    intro hr
    obtain ⟨x, hx⟩ := h.owned d k r hr
    have hne : x.id ≠ c.id := by
      intro hid
      obtain ⟨hm, _, dl', hp⟩ := hx
      exact idle k dl' (h.call_eq hm hc hid ▸ hp)
    exact ⟨x, (h.waits_enter hc).mpr (Or.inl ⟨hx, hne⟩)⟩
  split at hr
  · next hd =>
    subst hd
    rw [Pending.receiver?_register _ _ _ (h.boards c.request.desk).next_free] at hr
    split at hr
    · next hk => exact ⟨_, (h.waits_enter hc).mpr (Or.inr ⟨rfl, rfl, hk⟩)⟩
    · exact old hr
  · exact old hr

theorem Sound.apart_enter (h : v.Sound) {c x y : Call} {dl : Nat} {d : Desk} {k : Ticket}
    (hc : c ∈ v.calls) (hx : (v.enter c dl).Waits x d k) (hy : (v.enter c dl).Waits y d k) : x = y := by
  rcases (h.waits_enter hc).mp hx with ⟨hx, _⟩ | ⟨rfl, hd, hk⟩ <;>
    rcases (h.waits_enter hc).mp hy with ⟨hy, _⟩ | ⟨rfl, hd', hk'⟩
  · exact h.apart x y d k hx hy
  · exact absurd hk' (h.ne_nextTicket (hd' ▸ hx))
  · exact absurd hk (h.ne_nextTicket (hd ▸ hy))
  · rfl

/-- A call that holds what its request needs takes its place. -/
theorem Sound.entered (h : v.Sound) {c : Call} (hc : c ∈ v.calls) (idle : c.Idle)
    (holds : v.Holds c) (fits : ∀ t l, c.request = .attach t l →
      v.attached t = false ∧ (v.listener t).isSome = true) (dl : Nat) :
    (v.enter c dl).Sound := by
  constructor
  case ids =>
    unfold View.enter
    rw [map_id_setPoint]
    exact h.ids
  case present =>
    intro x hx
    rcases mem_setPoint.mp hx with ⟨hx, _⟩ | ⟨_, _, y, hy, _, hr⟩
    · exact h.present x hx
    · exact hr ▸ h.present y hy
  case holder =>
    intro x d k hw
    rcases (h.waits_enter hc).mp hw with ⟨hw, _⟩ | ⟨rfl, _⟩
    · exact h.holder x d k hw
    · exact holds
  case unattached =>
    intro x d k t l hw hx
    rcases (h.waits_enter hc).mp hw with ⟨hw, _⟩ | ⟨rfl, _⟩
    · exact h.unattached x d k t l hw hx
    · exact (fits t l hx).1
  case listening => exact h.listening
  case hearing =>
    intro x d k t l hw hx
    rcases (h.waits_enter hc).mp hw with ⟨hw, _⟩ | ⟨rfl, _⟩
    · exact h.hearing x d k t l hw hx
    · exact (fits t l hx).2
  case keys => exact h.keys
  case own => exact h.own
  case boards =>
    intro d
    rw [board_enter]
    split
    · exact (h.boards c.request.desk).register _
    · exact h.boards d
  case seat => exact fun x d k => h.seat_enter hc
  case owned => exact fun d k r => h.owned_enter hc idle
  case apart => exact fun x y d k => h.apart_enter hc

theorem waits_quit {c x : Call} {k k' : Ticket} {d : Desk} :
    (v.quit c k).Waits x d k' ↔ v.Waits x d k' ∧ x.id ≠ c.id := by
  unfold Waits
  rw [show (x ∈ (v.quit c k).calls ↔ x ∈ v.calls ∧ x.id ≠ c.id) from mem_retire]
  constructor
  · rintro ⟨⟨hx, hne⟩, hw⟩
    exact ⟨⟨hx, hw⟩, hne⟩
  · rintro ⟨⟨hx, hw⟩, hne⟩
    exact ⟨⟨hx, hne⟩, hw⟩

theorem quit_eq (v : View) (c : Call) (k : Ticket) :
    v.quit c k = { v with
      calls := v.calls.filter (·.id != c.id)
      lock := (v.retire c).lock
      board := Function.update v.board c.request.desk
        ((v.board c.request.desk).leave c.request.command k) } := by
  unfold quit
  rw [retire_eq]
  unfold retire changeLock
  cases c.request.need? <;> rfl

theorem board_quit (v : View) (c : Call) (k : Ticket) (d : Desk) : (v.quit c k).board d =
    if d = c.request.desk then (v.board c.request.desk).leave c.request.command k else v.board d := by
  rw [quit_eq]
  exact Function.update_apply _ _ _ _

theorem Sound.seat_quit (h : v.Sound) {c x : Call} {d : Desk} {k k' : Ticket}
    (hc : v.Waits c c.request.desk k) (hw : v.Waits x d k') (hne : x.id ≠ c.id) :
    ∃ r, ((v.quit c k).board d).receiver? k' = some r ∧
      (r = .waiting → k' ∈ ((v.quit c k).board d).queue x.request.command) := by
  obtain ⟨r, hr, hq⟩ := h.seat x d k' hw
  rw [board_quit]
  split
  · next hd =>
    subst hd
    -- another call that waits has another ticket
    have hk : k' ≠ k := by
      rintro rfl
      exact hne (congrArg Call.id (h.apart x c _ _ hw hc))
    refine ⟨r, ?_, fun he => ?_⟩
    · rw [Pending.receiver?_leave, if_neg hk]
      exact hr
    · rw [Pending.queue_leave]
      split
      · next e => exact List.mem_filter.mpr ⟨e ▸ hq he, bne_iff_ne.mpr hk⟩
      · exact hq he
  · exact ⟨r, hr, hq⟩

theorem Sound.owned_quit (h : v.Sound) {c : Call} {d : Desk} {k k' : Ticket} {r : Receiver Unit}
    (hc : v.Waits c c.request.desk k) (hr : ((v.quit c k).board d).receiver? k' = some r) :
    ∃ x, v.Waits x d k' ∧ x.id ≠ c.id := by
  rw [board_quit] at hr
  split at hr
  · next hd =>
    subst hd
    rw [Pending.receiver?_leave] at hr
    split at hr
    · cases hr
    · next hk =>
      obtain ⟨x, hx⟩ := h.owned _ k' r hr
      refine ⟨x, hx, fun hid => hk ?_⟩
      obtain rfl := h.call_eq hx.1 hc.1 hid
      obtain ⟨_, _, dl, hp⟩ := hx
      obtain ⟨_, _, dl', hp'⟩ := hc
      rw [hp] at hp'
      cases hp'
      rfl
  · next hd =>
    obtain ⟨x, hx⟩ := h.owned d k' r hr
    refine ⟨x, hx, fun hid => hd ?_⟩
    exact hx.2.1.symm.trans (congrArg (·.request.desk) (h.call_eq hx.1 hc.1 hid))

/-- A call that waits gives up its place. -/
theorem Sound.quit (h : v.Sound) {c : Call} {k : Ticket} (hc : v.Waits c c.request.desk k) :
    (v.quit c k).Sound := by
  have waits : ∀ x d k', (v.quit c k).Waits x d k' → v.Waits x d k' ∧ x.id ≠ c.id :=
    fun x d k' => waits_quit.mp
  have hattached : (v.quit c k).attached = v.attached := by rw [quit_eq]
  have hident : (v.quit c k).ident = v.ident := by rw [quit_eq]
  have hlistener : (v.quit c k).listener = v.listener := by rw [quit_eq]
  have hregistry : (v.quit c k).registry = v.registry := by rw [quit_eq]
  constructor
  case ids =>
    rw [quit_eq]
    exact h.ids.sublist (List.filter_sublist.map _)
  case present =>
    rw [hident]
    exact fun x hx => h.present x (mem_retire.mp hx).1
  case holder =>
    intro x d k' hw
    obtain ⟨hw, hne⟩ := waits x d k' hw
    exact Holds.retire (v := v.setBoard _ _) (h.holder x d k' hw) hne
  case unattached =>
    rw [hattached]
    exact fun x d k' t l hw => h.unattached x d k' t l (waits x d k' hw).1
  case listening =>
    rw [hattached, hlistener]
    exact h.listening
  case hearing =>
    rw [hlistener]
    exact fun x d k' t l hw => h.hearing x d k' t l (waits x d k' hw).1
  case keys =>
    rw [hregistry]
    exact h.keys
  case own =>
    rw [hregistry, hident]
    exact h.own
  case boards =>
    intro d
    rw [board_quit]
    split
    · exact (h.boards c.request.desk).leave _ _
    · exact h.boards d
  case seat =>
    intro x d k' hw
    obtain ⟨hw, hne⟩ := waits x d k' hw
    exact h.seat_quit hc hw hne
  case owned =>
    intro d k' r hr
    obtain ⟨x, hx⟩ := h.owned_quit hc hr
    exact ⟨x, waits_quit.mpr hx⟩
  case apart =>
    intro x y d k' hx hy
    exact h.apart x y d k' (waits x d k' hx).1 (waits y d k' hy).1

/-! ### Tabs and the registry -/

theorem Sound.heard (h : v.Sound) (t : Instance) (l : Listener) : (v.setListener t l).Sound := by
  have some_of : ∀ u, (v.listener u).isSome = true → ((v.setListener t l).listener u).isSome = true := by
    intro u hu
    show (Function.update v.listener t (some l) u).isSome = true
    rw [Function.update_apply]
    split
    · rfl
    · exact hu
  exact { h with
    listening := fun u hu => some_of u (h.listening u hu)
    hearing := fun c d k u l' hw hr => some_of u (h.hearing c d k u l' hw hr) }

theorem attached_setAttached (v : View) (t u : Instance) (a : Bool) :
    (v.setAttached t a).attached u = if u = t then a else v.attached u :=
  Function.update_apply _ _ _ _

/-- A tab whose attach nobody waits for any more can be attached. -/
theorem Sound.setAttached (h : v.Sound) {t : Instance} (listener : (v.listener t).isSome = true)
    (alone : ∀ c d k l, v.Waits c d k → c.request ≠ .attach t l) : (v.setAttached t true).Sound := by
  refine { h with unattached := ?_, listening := ?_ }
  · intro c d k u l hw hr
    rw [attached_setAttached, if_neg]
    · exact h.unattached c d k u l hw hr
    · rintro rfl
      exact alone c d k l hw hr
  · intro u hu
    rw [attached_setAttached] at hu
    split at hu
    · next e => exact e ▸ listener
    · exact h.listening u hu

theorem Sound.cutOff (h : v.Sound) (t : Instance) : (v.cutOff t).Sound := by
  have hf := h.failed (.tab t)
  refine { hf with unattached := ?_, listening := ?_ }
  · intro c d k u l hw hr
    show (v.setAttached t false).attached u = false
    rw [attached_setAttached]
    split
    · rfl
    · exact h.unattached c d k u l hw hr
  · intro u hu
    change (v.setAttached t false).attached u = true at hu
    rw [attached_setAttached] at hu
    split at hu
    · cases hu
    · exact h.listening u hu

theorem Sound.registered (h : v.Sound) {r : List (TabId × Instance)} (keys : (r.map (·.1)).Nodup)
    (own : ∀ id t, (id, t) ∈ r → v.ident t = some id) : { v with registry := r }.Sound :=
  { h with keys, own }

theorem Sound.struck (h : v.Sound) (p : TabId × Instance → Bool) :
    { v with registry := v.registry.filter p }.Sound :=
  h.registered (nodup_map_fst_filter h.keys p) fun id t hm => h.own id t (List.mem_of_mem_filter hm)

theorem Sound.enrolled (h : v.Sound) {id : TabId} {t : Instance} (ident : v.ident t = some id) :
    { v with registry := assign id t v.registry }.Sound := by
  refine h.registered (nodup_map_fst_assign h.keys) ?_
  intro k u hm
  rcases (mem_assign h.keys).mp hm with ⟨rfl, rfl⟩ | ⟨_, hm⟩
  · exact ident
  · exact h.own k u hm

theorem Sound.created (h : v.Sound) {t : Instance} (new : v.ident t = none) (id : TabId) :
    (v.create id t).Sound := by
  have keep : ∀ u, (v.ident u).isSome = true → (v.create id t).ident u = v.ident u := by
    intro u hu
    show Function.update v.ident t (some id) u = v.ident u
    rw [Function.update_of_ne]
    rintro rfl
    rw [new] at hu
    cases hu
  refine { h with present := ?_, keys := nodup_map_fst_assign h.keys, own := ?_ }
  · intro c hc u hu
    have hs := h.present c hc u hu
    rw [keep u hs]
    exact hs
  · intro k u hm
    rcases (mem_assign h.keys).mp hm with ⟨rfl, rfl⟩ | ⟨_, hm⟩
    · exact Function.update_self _ _ _
    · have ho := h.own k u hm
      rw [keep u (by rw [ho]; rfl)]
      exact ho

end View

namespace State

variable {s s' : State}

/-- The rules hold of what the view of a state shows. -/
def Sound (s : State) : Prop := s.view.Sound

theorem Sound.hasTab (h : s.Sound) {c : Call} (hc : c ∈ s.calls) : s.hasTab c.request := by
  intro t ht
  rw [← isSome_ident]
  exact h.present c hc t ht

theorem Sound.holds (h : s.Sound) {c : Call} (hc : c ∈ s.calls) : s.holds c = true ↔ s.view.Holds c :=
  holds_iff s c (h.hasTab hc)

theorem Sound.of_view_eq (h : s.Sound) (hv : s'.view = s.view) : s'.Sound := by
  unfold Sound
  rw [hv]
  exact h

theorem Ready.tuned {c : Call} (r : s.Ready c) (t : Instance) (l : Listener)
    (hr : c.request = .attach t l) :
    s.view.attached t = false ∧ (s.view.listener t).isSome = true := by
  have hf := r.fits
  rw [hr] at hf
  exact hf

theorem Sound.enter (h : s.Sound) {c : Call} (r : s.Ready c) : (s.enter c).Sound := by
  unfold Sound
  rw [view_enter s c r.tab]
  exact View.Sound.entered h r.mem r.idle ((h.holds r.mem).mp r.holds) r.tuned _

theorem view_asked (s : State) {c : Call} (r : s.Ready c) (m : Message) :
    (s.asked c m).view = s.view.enter c (s.deadlineOf c.request) := by
  unfold asked
  rw [view_send, view_enter s c r.tab]

theorem Sound.asked (h : s.Sound) {c : Call} (r : s.Ready c) (m : Message) : (s.asked c m).Sound :=
  (h.enter r).of_view_eq (view_send _ _ _)

/-- A call as it stands once it has taken its place. -/
def seated (s : State) (c : Call) : Call :=
  { c with point := .awaiting (s.nextTicket c.request) (s.deadlineOf c.request) }

theorem Sound.waits_seated (h : s.Sound) {c : Call} (r : s.Ready c) (m : Message) :
    (s.asked c m).view.Waits (s.seated c) c.request.desk (s.nextTicket c.request) := by
  unfold State.asked
  rw [view_send, view_enter s c r.tab, View.Sound.waits_enter h r.mem, nextTicket_eq]
  exact Or.inr ⟨by rw [seated, nextTicket_eq], rfl, rfl⟩

theorem Sound.quit (h : s.Sound) {c : Call} {k : Ticket} (hw : s.view.Waits c c.request.desk k) :
    (s.quit c k).Sound := by
  unfold Sound
  rw [view_quit s c k (h.hasTab hw.1)]
  exact View.Sound.quit h hw

theorem Sound.view_refused (h : s.Sound) {c : Call} (r : s.Ready c) (m : Message) :
    (s.refused c m).view =
      (s.view.enter c (s.deadlineOf c.request)).quit c (s.nextTicket c.request) := by
  have htab := (h.asked r m).hasTab (h.waits_seated r m).1
  unfold State.refused
  rw [view_quit _ c _ htab, view_asked s r m]

theorem Sound.refused (h : s.Sound) {c : Call} (r : s.Ready c) (m : Message) : (s.refused c m).Sound :=
  (h.asked r m).quit (c := s.seated c) (h.waits_seated r m)

theorem waits_of_point {c : Call} {k : Ticket} {d : Nat} (hc : c ∈ s.calls)
    (hp : c.point = .awaiting k d) : s.view.Waits c c.request.desk k :=
  ⟨hc, rfl, d, hp⟩

theorem Sound.view_granted (h : s.Sound) {c : Call} {t : Instance} {l : Listener} (hc : c ∈ s.calls)
    (about : c.request = .attach t l) (k : Ticket) :
    (s.granted c t k).view = (s.view.quit c k).setAttached t true := by
  have hv := view_quit s c k (h.hasTab hc)
  have htab : ((s.quit c k).tab? t).isSome = true := by
    rw [← isSome_ident, hv, View.quit_eq]
    exact h.present c hc t (by rw [about]; rfl)
  rw [← hv]
  exact view_setAttached _ t htab

theorem Sound.granted (h : s.Sound) {c : Call} {t : Instance} {l : Listener} {k : Ticket} {d : Nat}
    (hc : c ∈ s.calls) (about : c.request = .attach t l) (waits : c.point = .awaiting k d) :
    (s.granted c t k).Sound := by
  have hw := waits_of_point hc waits
  have hheard : ((s.view.quit c k).listener t).isSome = true := by
    rw [View.quit_eq]
    exact h.hearing c _ k t l hw about
  unfold Sound
  rw [h.view_granted hc about]
  refine View.Sound.setAttached (View.Sound.quit h hw) hheard ?_
  -- another call that asks to attach the tab would hold it too
  intro x d' k' l' hx hr
  obtain ⟨hx, hne⟩ := View.waits_quit.mp hx
  have hsame := View.Sound.exclusive (n := .tab t) h hx.1 hc (h.holder x d' k' hx) (h.holder c _ k hw)
    (by rw [hr]; rfl) (by rw [about]; rfl)
  exact hne (congrArg Call.id hsame)

theorem Change.sound (h : Change s s') (hs : s.Sound) : s'.Sound := by
  cases h with
  | noted es plain => exact hs
  | rewired c lasts opens listeners closes inbound => exact hs
  | readied ready => exact hs
  | served => exact hs.of_view_eq (view_ensureService s)
  | marked t l tab =>
    unfold Sound
    rw [view_mark s t l tab]
    exact View.Sound.heard hs t l
  | unmarked r => exact hs.of_view_eq (view_unmark s r)
  | purged => exact View.Sound.struck hs _
  | enrolled c t tab mem idle holds about known vacant =>
    refine View.Sound.enrolled hs ?_
    show (s.tab? t).map (·.id) = _
    rw [known]
    rfl
  | created e vacant =>
    unfold Sound
    rw [view_create]
    refine View.Sound.created hs ?_ e.id
    show (s.tab? s.tabs.length).map (·.id) = none
    rw [tab?_length]
    rfl
  | lined c mem fresh =>
    unfold Sound
    rw [view_changeLock _ _ _ (Or.inl (hs.hasTab mem))]
    exact View.Sound.lined hs c.request c.id
  | queued c mem fresh => exact View.Sound.queued hs mem fun k d => by rw [fresh]; exact Point.noConfusion
  | asked c m ready sent => exact hs.asked ready m
  | refused c m ready e unsent => exact hs.refused ready m
  | quit c k d mem waits => exact hs.quit (waits_of_point mem waits)
  | retired c mem idle =>
    unfold Sound
    rw [view_retire]
    exact View.Sound.retired hs mem idle
  | granted c t l k d v mem about waits answered => exact hs.granted mem about waits

/-- Whoever waits after a change waited before, or has just asked. -/
theorem Change.waits (h : Change s s') (hs : s.Sound) {x : Call} {d : Desk} {k : Ticket}
    (hw : s'.view.Waits x d k) : s.view.Waits x d k ∨
      ∃ c m, s.Ready c ∧ ((s.enter c).send (some c.id) m).2 = .ok () ∧ s' = s.asked c m ∧
        x = s.seated c ∧ d = c.request.desk ∧ k = s.nextTicket c.request := by
  cases h with
  | noted es plain => exact Or.inl hw
  | rewired c lasts opens listeners closes inbound => exact Or.inl hw
  | readied ready => exact Or.inl hw
  | served =>
    rw [view_ensureService] at hw
    exact Or.inl hw
  | marked t l tab =>
    rw [view_mark s t l tab] at hw
    exact Or.inl hw
  | unmarked r =>
    rw [view_unmark] at hw
    exact Or.inl hw
  | purged => exact Or.inl hw
  | enrolled c t tab mem idle holds about known vacant => exact Or.inl hw
  | created e vacant =>
    rw [view_create] at hw
    exact Or.inl hw
  | lined c mem fresh =>
    rw [view_changeLock _ _ _ (Or.inl (hs.hasTab mem)), View.changeLock_eq] at hw
    exact Or.inl hw
  | queued c mem fresh =>
    rw [view_setPoint] at hw
    obtain ⟨hx, hd, dl, hp⟩ := hw
    rcases View.mem_setPoint.mp hx with ⟨hx, _⟩ | ⟨_, hq, _⟩
    · exact Or.inl ⟨hx, hd, dl, hp⟩
    · rw [hq] at hp
      cases hp
  | asked c m ready sent =>
    rw [view_asked s ready m, View.Sound.waits_enter hs ready.mem] at hw
    rcases hw with ⟨hw, _⟩ | ⟨hx, hd, hk⟩
    · exact Or.inl hw
    · rw [← nextTicket_eq] at hx hk
      exact Or.inr ⟨c, m, ready, sent, rfl, hx, hd, hk⟩
  | refused c m ready e unsent =>
    rw [hs.view_refused ready m] at hw
    obtain ⟨hw, hne⟩ := View.waits_quit.mp hw
    rcases (View.Sound.waits_enter hs ready.mem).mp hw with ⟨hw, _⟩ | ⟨rfl, _⟩
    · exact Or.inl hw
    · exact absurd rfl hne
  | quit c k d mem waits =>
    rw [view_quit s c k (hs.hasTab mem)] at hw
    exact Or.inl (View.waits_quit.mp hw).1
  | retired c mem idle =>
    rw [view_retire] at hw
    exact Or.inl ⟨(View.mem_retire.mp hw.1).1, hw.2⟩
  | granted c t l k d v mem about waits answered =>
    rw [hs.view_granted mem about] at hw
    exact Or.inl (View.waits_quit.mp hw).1

theorem Answer.clock {d : Desk} {command : String} (h : Answer s d command s') : s'.clock = s.clock := by
  cases h <;> rfl

theorem Answer.calls {d : Desk} {command : String} (h : Answer s d command s') : s'.calls = s.calls := by
  cases h <;> rfl

/-- A reply shows in one table only. -/
theorem Answer.view {d : Desk} {command : String} (h : Answer s d command s') :
    s'.view = s.view.setBoard d ((s.view.board d).complete command ()).2 := by
  cases h with
  | session p known v =>
    have hb : s.view.board .session = p.blank := by
      show (s.service.getD {}).blank = _
      rw [known]
      rfl
    rw [hb, ← Pending.blank_complete]
    exact view_setServiceTable s .ping _ rfl
  | separate v =>
    show _ = s.view.setBoard .separate (s.separate.blank.complete command ()).2
    rw [← Pending.blank_complete]
    exact view_setServiceTable s (.service .ping 0) _ rfl
  | tab t known v =>
    rw [view_setTabTable s t _ known, Pending.blank_complete]
    rfl

theorem Answer.sound {d : Desk} {command : String} (h : Answer s d command s') (hs : s.Sound) :
    s'.Sound := by
  unfold Sound
  rw [h.view]
  exact View.Sound.answered hs d command

theorem view_announceDetached (s : State) (t : Instance) : (s.announceDetached t).view = s.view := by
  rw [announceDetached_eq, view_note]

theorem view_failSeparate (s : State) :
    ({ s with separate := s.separate.failAll } : State).view =
      s.view.setBoard .separate (s.view.board .separate).failAll := by
  show _ = s.view.setBoard .separate s.separate.blank.failAll
  rw [← Pending.blank_failAll]
  exact view_setServiceTable s (.service .ping 0) _ rfl

/-- The service calls of a session that hears of the end of its connection fail. -/
theorem view_close (s : State) : s.close.1.view =
    if s.connection.connected && s.listens then
      s.view.setBoard .session (s.view.board .session).failAll
    else s.view := by
  unfold close
  by_cases hc : s.connection.connected
  · by_cases hl : s.listens
    · simp only [hc, hl, if_true, Bool.and_self]
      have hv : ({ s with service := s.service.map Pending.failAll } : State).view =
          s.view.setBoard .session (s.view.board .session).failAll := by
        show _ = s.view.setBoard .session (s.service.getD {}).blank.failAll
        rw [← Pending.blank_failAll]
        cases hp : s.service with
        | some p => exact view_setServiceTable s .ping _ rfl
        | none =>
          have hu : ({ s with service := none } : State) = s := by rw [← hp]
          have hb : s.view.board .session = ({} : Pending ServiceResponse).failAll.blank := by
            show (s.service.getD {}).blank = _
            rw [hp]
            rfl
          show ({ s with service := none } : State).view =
            s.view.setBoard .session ({} : Pending ServiceResponse).failAll.blank
          rw [hu]
          unfold View.setBoard
          rw [Function.update_eq_self_iff.mpr hb.symm]
      exact hv
    · simp only [hc, hl, if_true, Bool.and_false, Bool.false_eq_true, if_false]
      rfl
  · simp only [hc, Bool.false_and, Bool.false_eq_true, if_false]

theorem Sound.close (hs : s.Sound) : s.close.1.Sound := by
  unfold Sound
  rw [view_close]
  split
  · exact View.Sound.failed hs .session
  · exact hs

theorem registry_close (s : State) : s.close.1.registry = s.registry := by
  unfold close
  split
  · split <;> rfl
  · rfl

theorem isAttached_close (s : State) (t : Instance) : s.close.1.isAttached t = s.isAttached t := by
  show s.close.1.view.attached t = _
  rw [view_close]
  split <;> rfl

/-- A close leaves at most its own entry. -/
theorem journal_close (s : State) : s.close.1.journal = s.journal ∨
    s.close.1.journal = s.journal ++ [.connectionClosed] := by
  unfold close
  split
  · split
    · exact Or.inr rfl
    · exact Or.inl rfl
  · exact Or.inl rfl

theorem view_detach (s : State) (t : Instance) : (s.perform (.detach t)).1.view = s.view.cutOff t := by
  unfold perform
  dsimp only
  split
  · exact (view_announceDetached _ t).trans (view_cutOff s t)
  · exact view_cutOff s t

theorem attached_detach (s : State) (t u : Instance) :
    (s.perform (.detach t)).1.isAttached u = if u = t then false else s.isAttached u := by
  show (s.perform (.detach t)).1.view.attached u = _
  rw [view_detach]
  exact View.attached_setAttached s.view t u false

theorem registry_detach (s : State) (t : Instance) :
    (s.perform (.detach t)).1.registry = s.registry :=
  congrArg View.registry (view_detach s t)

theorem ident_detach (s : State) (t : Instance) :
    (s.perform (.detach t)).1.view.ident = s.view.ident := by
  rw [view_detach]
  rfl

theorem connection_detach (s : State) (t : Instance) :
    (s.perform (.detach t)).1.connection = s.connection := by
  unfold perform
  dsimp only
  split
  · rw [announceDetached_eq]
    rfl
  · rfl

/-- A detach leaves at most what the collaborators of the tab hear. -/
theorem journal_detach (s : State) (t : Instance) : (s.perform (.detach t)).1.journal = s.journal ∨
    ∃ x : State, (s.perform (.detach t)).1.journal = s.journal ++ x.farewell t := by
  unfold perform
  dsimp only
  split
  · rw [announceDetached_eq]
    exact Or.inr ⟨_, rfl⟩
  · exact Or.inl rfl

theorem registry_terminate (s : State) (id : TabId) :
    (s.perform (.terminate id)).1 = { s with registry := s.registry.filter (·.1 != id) } := by
  unfold perform
  dsimp only
  split
  · next h => rw [filter_ne_of_lookup_none h]
  · rfl

theorem perform_closeIfIdle (s : State) :
    s.perform .closeIfIdle = if s.hasLive then (s, []) else s.close := rfl

theorem Sound.perform (hs : s.Sound) (d : Duty) : (s.perform d).1.Sound := by
  cases d with
  | detach t =>
    unfold Sound
    rw [view_detach]
    exact View.Sound.cutOff hs t
  | terminate id =>
    rw [registry_terminate]
    exact View.Sound.struck hs _
  | closeIfIdle =>
    rw [perform_closeIfIdle]
    split
    · exact hs
    · exact hs.close

theorem Sound.opened (hs : s.Sound) {id : CallId} {r : Request} (can : s.canStart id r = true) :
    ({ s with calls := s.calls ++ [({ id, request := r } : Call)] } : State).Sound := by
  unfold canStart at can
  simp only [Bool.and_eq_true, call?, Option.isNone_iff_eq_none, List.find?_eq_none] at can
  obtain ⟨⟨new, tab⟩, _⟩ := can
  refine View.Sound.opened hs (fun k d => Point.noConfusion) (fun x hx => ?_) (fun t ht => ?_)
  · simpa using new x hx
  · rw [isSome_ident]
    change r.tab? = some t at ht
    rw [ht] at tab
    exact tab

theorem ReplyFreeMove.sound (h : ReplyFreeMove s s') (hs : s.Sound) : s'.Sound := by
  cases h with
  | change h => exact h.sound hs
  | opened id r can => exact hs.opened can
  | wired c connected listeners closes => exact hs
  | tweaked t f keeps => exact hs.of_view_eq (view_modifyTab_keeps s t keeps)
  | aged ms => exact hs
  | separated =>
    unfold Sound
    rw [view_failSeparate]
    exact View.Sound.failed hs .separate

theorem BypassFreeMove.sound (h : BypassFreeMove s s') (hs : s.Sound) : s'.Sound := by
  cases h with
  | replyFree h => exact h.sound hs
  | answer h routed => exact h.sound hs

theorem ReplyFreeMove.waits (h : ReplyFreeMove s s') (hs : s.Sound) {x : Call} {d : Desk} {k : Ticket}
    (hw : s'.view.Waits x d k) : s.view.Waits x d k ∨
      ∃ c m, s.Ready c ∧ ((s.enter c).send (some c.id) m).2 = .ok () ∧ s' = s.asked c m ∧
        x = s.seated c ∧ d = c.request.desk ∧ k = s.nextTicket c.request := by
  cases h with
  | change h => exact h.waits hs hw
  | opened id r can =>
    obtain ⟨hx, hd, dl, hp⟩ := hw
    refine Or.inl ⟨?_, hd, dl, hp⟩
    rcases List.mem_append.mp hx with hx | hx
    · exact hx
    · rw [List.mem_singleton.mp hx] at hp
      cases hp
  | wired c connected listeners closes => exact Or.inl hw
  | tweaked t f keeps =>
    rw [view_modifyTab_keeps s t keeps] at hw
    exact Or.inl hw
  | aged ms => exact Or.inl hw
  | separated =>
    rw [view_failSeparate] at hw
    exact Or.inl hw

theorem BypassFreeMove.waits (h : BypassFreeMove s s') (hs : s.Sound) {x : Call} {d : Desk} {k : Ticket}
    (hw : s'.view.Waits x d k) : s.view.Waits x d k ∨
      ∃ c m, s.Ready c ∧ ((s.enter c).send (some c.id) m).2 = .ok () ∧ s' = s.asked c m ∧
        x = s.seated c ∧ d = c.request.desk ∧ k = s.nextTicket c.request := by
  cases h with
  | replyFree h => exact h.waits hs hw
  | answer h routed =>
    rw [h.view] at hw
    exact Or.inl hw

theorem calls_retire (s : State) (c : Call) : (s.retire c).calls = s.calls.filter (·.id != c.id) := by
  unfold retire
  cases c.request <;> rfl

theorem calls_quit (s : State) (c : Call) (k : Ticket) :
    (s.quit c k).calls = s.calls.filter (·.id != c.id) := by
  unfold quit
  rw [calls_retire]
  cases c.request <;> rfl

theorem calls_close (s : State) : s.close.1.calls = s.calls := by
  unfold close
  split
  · split <;> rfl
  · rfl

theorem calls_perform (s : State) (d : Duty) : (s.perform d).1.calls = s.calls := by
  cases d with
  | detach t =>
    show (s.perform (.detach t)).1.view.calls = _
    rw [view_detach]
    rfl
  | terminate id => rw [registry_terminate]
  | closeIfIdle =>
    rw [perform_closeIfIdle]
    split
    · rfl
    · exact calls_close s

theorem EndFreeMove.sound (h : EndFreeMove s s') (hs : s.Sound) : s'.Sound := by
  cases h with
  | bypassFree h => exact h.sound hs
  | handed h => exact h.sound hs
  | dropped => exact hs

theorem Move.sound (h : Move s s') (hs : s.Sound) : s'.Sound := by
  cases h with
  | endFree h => exact h.sound hs
  | performed d => exact hs.perform d
  | closed => exact hs.close

theorem Moves.sound (h : Moves s s') (hs : s.Sound) : s'.Sound := by
  induction h with
  | refl => exact hs
  | tail _ step ih => exact step.sound ih

theorem EndFreeMoves.sound (h : EndFreeMoves s s') (hs : s.Sound) : s'.Sound := h.moves.sound hs

theorem BypassFreeMoves.sound (h : BypassFreeMoves s s') (hs : s.Sound) : s'.Sound := h.endFree.sound hs

theorem ReplyFreeMoves.sound (h : ReplyFreeMoves s s') (hs : s.Sound) : s'.Sound := h.bypassFree.sound hs

theorem Changes.sound (h : Changes s s') (hs : s.Sound) : s'.Sound := h.bypassFree.sound hs

theorem sound_initial (config : Config) (restartable : Bool) (rules : List (String × Json)) :
    (initial config restartable rules).Sound where
  ids := List.nodup_nil
  present := fun _ hc => by cases hc
  holder := fun _ _ _ hw => by cases hw.1
  unattached := fun _ _ _ _ _ hw => by cases hw.1
  listening := fun _ ht => by cases ht
  hearing := fun _ _ _ _ _ hw => by cases hw.1
  keys := List.nodup_nil
  own := fun _ _ hm => by cases hm
  boards := fun d => by
    cases d <;> exact Pending.Sound.empty
  seat := fun _ _ _ hw => by cases hw.1
  owned := fun d k r hr => by cases d <;> cases hr
  apart := fun _ _ _ _ hw => by cases hw.1

end State
end RemoteDebug.Engine
