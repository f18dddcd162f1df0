import Mathlib.Algebra.GroupWithZero.Nat
import RemoteDebug.Proofs.Discipline

/-! How much is left to do: what the calls can still do, and the messages not delivered.

No change makes more of it. A call that asks, or that comes to its end, makes less:
an `Advance` is a chain of changes with less to do at its end. -/
namespace RemoteDebug.Engine
open Protocol Wire

/-- How often a call at this point can still go on, and one more while its request may be answered. -/
def Point.weight : Point → Nat
  | .fresh => 4
  | .queued => 3
  | .awaiting .. => 1

theorem Point.weight_pos (p : Point) : 0 < p.weight := by
  cases p <;> exact Nat.succ_pos _

theorem Point.weight_le (p : Point) : p.weight ≤ 4 := by
  cases p <;> simp [Point.weight]

theorem Call.Idle.weight_ge {c : Call} (h : c.Idle) : 3 ≤ c.point.weight := by
  cases hp : c.point with
  | fresh => exact Nat.le_succ 3
  | queued => exact Nat.le_refl 3
  | awaiting k d => exact absurd hp (h k d)

namespace View

variable {v : View}

/-- What the calls can still do. -/
def load (v : View) : Nat := (v.calls.map (·.point.weight)).sum

theorem load_le (v : View) : v.load ≤ 4 * v.calls.length := by
  unfold load
  induction v.calls with
  | nil => exact Nat.le_refl _
  | cons c rest ih =>
    have hc := c.point.weight_le
    simp only [List.map_cons, List.sum_cons, List.length_cons]
    omega

/-- A call and those before and after it, which have other numbers. -/
theorem Sound.split (h : v.Sound) {c : Call} (hc : c ∈ v.calls) :
    ∃ a b, v.calls = a ++ c :: b ∧ (∀ x ∈ a, x.id ≠ c.id) ∧ ∀ x ∈ b, x.id ≠ c.id := by
  obtain ⟨a, b, hab⟩ := List.append_of_mem hc
  have hids := h.ids
  rw [hab, List.map_append, List.map_cons, List.nodup_append, List.nodup_cons] at hids
  obtain ⟨_, ⟨hb, _⟩, hcross⟩ := hids
  refine ⟨a, b, hab, fun x hx he => ?_, fun x hx he => ?_⟩
  · exact hcross x.id (List.mem_map_of_mem hx) c.id (List.mem_cons_self ..) he
  · exact hb (List.mem_map.mpr ⟨x, hx, he⟩)

theorem Sound.load_retire (h : v.Sound) {c : Call} (hc : c ∈ v.calls) :
    (v.retire c).load + c.point.weight = v.load := by
  obtain ⟨a, b, hab, ha, hb⟩ := h.split hc
  have hcalls : (v.retire c).calls = a ++ b := by
    rw [retire_eq]
    show v.calls.filter (·.id != c.id) = a ++ b
    rw [hab, List.filter_append, List.filter_cons_of_neg (by simp),
      List.filter_eq_self.mpr fun x hx => bne_iff_ne.mpr (ha x hx),
      List.filter_eq_self.mpr fun x hx => bne_iff_ne.mpr (hb x hx)]
  unfold load
  rw [hcalls, hab]
  simp only [List.map_append, List.map_cons, List.sum_append, List.sum_cons]
  omega

theorem Sound.load_setPoint (h : v.Sound) {c : Call} (hc : c ∈ v.calls) (p : Point) :
    (v.setPoint c.id p).load + c.point.weight = v.load + p.weight := by
  obtain ⟨a, b, hab, ha, hb⟩ := h.split hc
  have keep : ∀ l : List Call, (∀ x ∈ l, x.id ≠ c.id) →
      l.map (fun x => if x.id = c.id then { x with point := p } else x) = l := fun l hl =>
    (List.map_congr_left fun x hx => if_neg (hl x hx)).trans (List.map_id' l)
  have hcalls : (v.setPoint c.id p).calls = a ++ { c with point := p } :: b := by
    show v.calls.map _ = _
    rw [hab, List.map_append, List.map_cons, keep a ha, keep b hb, if_pos rfl]
  unfold load
  rw [hcalls, hab]
  simp only [List.map_append, List.map_cons, List.sum_append, List.sum_cons]
  omega

theorem Sound.load_enter (h : v.Sound) {c : Call} (hc : c ∈ v.calls) (dl : Nat) :
    (v.enter c dl).load + c.point.weight = v.load + 1 :=
  h.load_setPoint hc (.awaiting (v.nextTicket c.request) dl)

theorem Sound.load_quit (h : v.Sound) {c : Call} (hc : c ∈ v.calls) (k : Ticket) :
    (v.quit c k).load + c.point.weight = v.load := by
  have hcalls : (v.quit c k).calls = (v.retire c).calls := by
    rw [quit_eq, retire_eq]
  have hl : (v.quit c k).load = (v.retire c).load := by
    unfold load
    rw [hcalls]
  rw [hl]
  exact h.load_retire hc

theorem load_changeLock (v : View) (r : Request) (f : List CallId → List CallId) :
    (v.changeLock r f).load = v.load := by
  rw [changeLock_eq]
  rfl

end View

namespace State

variable {s s' s'' : State}

/-- The work left: what the calls can still do, and the messages not delivered. -/
def work (s : State) : Nat := s.view.load + s.connection.inbound.length

/-- What a connection is does not depend on what is sent over it. -/
theorem send_keeps (c : Connection) (m : Message) : (c.send m).1.connected = c.connected ∧
    (c.send m).1.listeners = c.listeners ∧ (c.send m).1.closes = c.closes := by
  unfold Connection.send
  split
  · exact ⟨rfl, rfl, rfl⟩
  · split
    · exact ⟨rfl, rfl, rfl⟩
    · split <;> exact ⟨rfl, rfl, rfl⟩

theorem length_inbound_send (c : Connection) (m : Message) :
    (c.send m).1.inbound.length ≤ c.inbound.length + 1 := by
  unfold Connection.send
  split
  · exact Nat.le_succ _
  · split
    · exact Nat.le_succ _
    · split
      · exact Nat.le_succ _
      · simp

theorem length_inbound_send_of_error {c : Connection} {m : Message} {e : TransportError}
    (h : (c.send m).2 = .error e) : (c.send m).1.inbound = c.inbound := by
  unfold Connection.send at h ⊢
  split
  · rfl
  · next hf =>
    rw [hf] at h
    dsimp only at h
    split
    · rfl
    · next hc =>
      rw [if_neg hc] at h
      split at h <;> cases h

theorem connection_send (s : State) (a : Option CallId) (m : Message) :
    (s.send a m).1.connection = (s.connection.send m).1 := by
  rw [send_eq]
  rfl

theorem result_send (s : State) (a : Option CallId) (m : Message) :
    (s.send a m).2 = (s.connection.send m).2 := by
  rw [send_eq]

/-! What a call does to its place, its lock and its tab leaves the connection and the journal
alone. -/

theorem connection_changeLock (s : State) (r : Request) (f : List CallId → List CallId) :
    (s.changeLock r f).connection = s.connection := by
  cases r <;> rfl

theorem connection_retire (s : State) (c : Call) : (s.retire c).connection = s.connection :=
  connection_changeLock _ _ _

theorem connection_leave (s : State) (r : Request) (k : Ticket) :
    (s.leave r k).connection = s.connection := by
  cases r <;> rfl

theorem connection_unmark (s : State) (r : Request) : (s.unmark r).connection = s.connection := by
  cases r <;> rfl

theorem connection_enter (s : State) (c : Call) : (s.enter c).connection = s.connection := by
  unfold enter join
  cases c.request <;> rfl

theorem connection_quit (s : State) (c : Call) (k : Ticket) :
    (s.quit c k).connection = s.connection := by
  unfold quit
  rw [connection_retire, connection_unmark, connection_leave]

theorem journal_changeLock (s : State) (r : Request) (f : List CallId → List CallId) :
    (s.changeLock r f).journal = s.journal := by
  cases r <;> rfl

theorem journal_retire (s : State) (c : Call) : (s.retire c).journal = s.journal :=
  journal_changeLock _ _ _

theorem journal_leave (s : State) (r : Request) (k : Ticket) : (s.leave r k).journal = s.journal := by
  cases r <;> rfl

theorem journal_unmark (s : State) (r : Request) : (s.unmark r).journal = s.journal := by
  cases r <;> rfl

theorem journal_enter (s : State) (c : Call) : (s.enter c).journal = s.journal := by
  unfold enter join
  cases c.request <;> rfl

theorem journal_quit (s : State) (c : Call) (k : Ticket) : (s.quit c k).journal = s.journal := by
  unfold quit
  rw [journal_retire, journal_unmark, journal_leave]

theorem journal_ensureService (s : State) : s.ensureService.journal = s.journal := by
  unfold ensureService
  split <;> rfl

theorem journal_asked (s : State) (c : Call) (m : Message) :
    (s.asked c m).journal = s.journal ++ posted (some c.id) m ((s.enter c).send (some c.id) m).2 := by
  unfold asked
  rw [result_send, send_eq]
  show (s.enter c).journal ++ _ = _
  rw [journal_enter]

theorem connection_asked (s : State) (c : Call) (m : Message) :
    (s.asked c m).connection = (s.connection.send m).1 := by
  unfold asked
  rw [connection_send, connection_enter]

theorem connection_ensureService (s : State) :
    s.ensureService.connection.inbound = s.connection.inbound := by
  unfold ensureService
  split <;> rfl

theorem work_of_view_eq (hv : s'.view = s.view)
    (hi : s'.connection.inbound = s.connection.inbound) : s'.work = s.work := by
  unfold work
  rw [hv, hi]

/-- Whoever asks has at least one thing less to do, though an answer may wait already. -/
theorem Sound.work_asked (hs : s.Sound) {c : Call} (r : s.Ready c) (m : Message) :
    (s.asked c m).work < s.work := by
  have hw := r.idle.weight_ge
  have hl := View.Sound.load_enter hs r.mem (s.deadlineOf c.request)
  have hi := length_inbound_send s.connection m
  unfold work
  rw [view_asked s r m, connection_asked]
  omega

theorem Sound.work_quit (hs : s.Sound) {c : Call} (hc : c ∈ s.calls) (k : Ticket) :
    (s.quit c k).work < s.work := by
  have hw := c.point.weight_pos
  have hl := View.Sound.load_quit hs hc k
  unfold work
  rw [view_quit s c k (hs.hasTab hc), connection_quit]
  omega

theorem Sound.work_refused (hs : s.Sound) {c : Call} (r : s.Ready c) {m : Message}
    {e : TransportError} (unsent : ((s.enter c).send (some c.id) m).2 = .error e) :
    (s.refused c m).work < s.work := by
  have hw := r.idle.weight_ge
  have hl := View.Sound.load_enter hs r.mem (s.deadlineOf c.request)
  have hq := (hs.asked r m).work_quit (hs.waits_seated r m).1 (s.nextTicket c.request)
  change (s.refused c m).work < _ at hq
  rw [result_send, connection_enter] at unsent
  have ha : (s.asked c m).work ≤ s.work := by
    unfold work
    rw [view_asked s r m, connection_asked, length_inbound_send_of_error unsent]
    omega
  exact Nat.lt_of_lt_of_le hq ha

theorem Sound.work_retire (hs : s.Sound) {c : Call} (hc : c ∈ s.calls) :
    (s.retire c).work < s.work := by
  have hw := c.point.weight_pos
  have hl := View.Sound.load_retire hs hc
  unfold work
  rw [view_retire, connection_retire]
  omega

theorem Sound.work_queued (hs : s.Sound) {c : Call} (hc : c ∈ s.calls) (fresh : c.point = .fresh) :
    (s.setPoint c.id .queued).work < s.work := by
  have hl := View.Sound.load_setPoint hs hc .queued
  rw [fresh] at hl
  change _ + 4 = _ + 3 at hl
  unfold work
  rw [view_setPoint]
  show _ + s.connection.inbound.length < _
  omega

theorem Sound.work_granted (hs : s.Sound) {c : Call} {t : Instance} {l : Listener} {k : Ticket}
    (hc : c ∈ s.calls) (about : c.request = .attach t l) : (s.granted c t k).work < s.work := by
  have hw : (s.granted c t k).work = (s.quit c k).work := by
    unfold work
    rw [hs.view_granted hc about, view_quit s c k (hs.hasTab hc)]
    rfl
  rw [hw]
  exact hs.work_quit hc k

/-- No change makes more work. -/
theorem Change.work_le (h : Change s s') (hs : s.Sound) : s'.work ≤ s.work := by
  cases h with
  | noted es plain => exact Nat.le_refl _
  | rewired c lasts opens listeners closes inbound => exact Nat.add_le_add_left inbound _
  | readied ready => exact Nat.le_refl _
  | served => exact Nat.le_of_eq (work_of_view_eq (view_ensureService s) (connection_ensureService s))
  | marked t l tab =>
    unfold work
    rw [view_mark s t l tab]
    exact Nat.le_refl _
  | unmarked r =>
    exact Nat.le_of_eq (work_of_view_eq (view_unmark s r) (congrArg _ (connection_unmark s r)))
  | purged => exact Nat.le_refl _
  | enrolled c t tab mem idle holds about known vacant => exact Nat.le_refl _
  | created e vacant =>
    unfold work
    rw [view_create]
    exact Nat.le_refl _
  | lined c mem fresh =>
    refine Nat.le_of_eq ?_
    unfold work
    rw [view_changeLock _ _ _ (Or.inl (hs.hasTab mem)), View.load_changeLock, connection_changeLock]
  | queued c mem fresh => exact Nat.le_of_lt (hs.work_queued mem fresh)
  | asked c m ready sent => exact Nat.le_of_lt (hs.work_asked ready m)
  | refused c m ready e unsent => exact Nat.le_of_lt (hs.work_refused ready unsent)
  | quit c k d mem waits => exact Nat.le_of_lt (hs.work_quit mem k)
  | retired c mem idle => exact Nat.le_of_lt (hs.work_retire mem)
  | granted c t l k d v mem about waits answered =>
    exact Nat.le_of_lt (hs.work_granted mem about)

theorem Changes.work_le (h : Changes s s') (hs : s.Sound) : s'.work ≤ s.work := by
  induction h with
  | refl => exact Nat.le_refl _
  | tail steps step ih => exact Nat.le_trans (step.work_le (Changes.sound steps hs)) ih

/-- Changes by which a call comes nearer to its end. -/
def Advance (s s' : State) : Prop := Changes s s' ∧ s'.work < s.work

theorem Advance.then (h : Advance s s') (hs : s.Sound) (h' : Changes s' s'') : Advance s s'' :=
  ⟨h.1.trans h', Nat.lt_of_le_of_lt (Changes.work_le h' (Changes.sound h.1 hs)) h.2⟩

theorem Advance.after (h' : Advance s' s'') (hs : s.Sound) (h : Changes s s') : Advance s s'' :=
  ⟨h.trans h'.1, Nat.lt_of_lt_of_le h'.2 (Changes.work_le h hs)⟩

theorem Change.advance (h : Change s s') (hw : s'.work < s.work) : Advance s s' :=
  ⟨Relation.ReflTransGen.single h, hw⟩

end State
end RemoteDebug.Engine
