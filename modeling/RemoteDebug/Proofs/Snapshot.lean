import Mathlib.Data.List.Nodup
import RemoteDebug.Proofs.Closing

/-! The order in which the registry lists its tabs does not matter.

When a connection closes, every registered tab is detached, one after the other. Two
of these detaches can change places: only the entries of different tabs then stand in
another order in the journal. So a cascade that starts with the registry in another
order ends in the same state, and each tab hears the same. -/
namespace RemoteDebug.Engine
open Protocol Wire

namespace State

variable {s s' s'' : State} {order : List (TabId × Instance)}

/-- The registry may be listed in another order, and the events of different tabs may have come in
another order. -/
def Alike (s s' : State) : Prop :=
  ∃ registry journal, s' = { s with registry, journal } ∧ registry.Perm s.registry ∧
    ∀ t, tabEvents t journal = tabEvents t s.journal

theorem Alike.refl (s : State) : Alike s s := ⟨_, _, rfl, .refl _, fun _ => rfl⟩

theorem Alike.trans (h : Alike s s') (h' : Alike s' s'') : Alike s s'' := by
  obtain ⟨registry, journal, rfl, hp, he⟩ := h
  obtain ⟨registry', journal', rfl, hp', he'⟩ := h'
  exact ⟨registry', journal', rfl, hp'.trans hp, fun t => (he' t).trans (he t)⟩

theorem Alike.note (h : Alike s s') (es : List Entry) : Alike (s.note es) (s'.note es) := by
  obtain ⟨registry, journal, rfl, hp, he⟩ := h
  refine ⟨registry, journal ++ es, rfl, hp, fun t => ?_⟩
  show _ = tabEvents t (s.journal ++ es)
  rw [tabEvents_append, tabEvents_append, he t]

theorem Alike.strike (h : Alike s s') (id : TabId) : Alike (s.strike id) (s'.strike id) := by
  obtain ⟨registry, journal, rfl, hp, he⟩ := h
  exact ⟨_, journal, rfl, hp.filter _, he⟩

theorem Alike.attached (h : Alike s s') (t : Instance) : s'.isAttached t = s.isAttached t := by
  obtain ⟨_, _, rfl, _⟩ := h
  rfl

theorem Alike.connection (h : Alike s s') : s'.connection = s.connection := by
  obtain ⟨_, _, rfl, _⟩ := h
  rfl

theorem Alike.perm (h : Alike s s') : s'.registry.Perm s.registry := by
  obtain ⟨_, _, rfl, hp, _⟩ := h
  exact hp

theorem Alike.attentive (h : Alike s s') (ha : s.Attentive) : s'.Attentive := by
  obtain ⟨_, _, rfl, _⟩ := h
  exact ha.of_eq id rfl rfl rfl rfl

theorem Alike.sound (h : Alike s s') (hs : s.Sound) : s'.Sound := by
  obtain ⟨registry, journal, rfl, hp, _⟩ := h
  refine View.Sound.registered hs ((hp.map _).nodup_iff.mpr hs.keys) fun id t hm => ?_
  exact hs.own id t (hp.mem_iff.mp hm)

theorem Alike.hasLive (h : Alike s s') : s'.hasLive = s.hasLive := by
  obtain ⟨_, _, rfl, hp, _⟩ := h
  exact hp.any_eq

theorem Alike.registered (h : Alike s s') (hs : s.Sound) (id : TabId) :
    s'.registered? id = s.registered? id :=
  lookup_perm h.perm (View.Sound.keys (h.sound hs)) id

/-! ### Duties -/

theorem Alike.detach (h : Alike s s') (t : Instance) :
    Alike (s.perform (.detach t)).1 (s'.perform (.detach t)).1 ∧
      (s'.perform (.detach t)).2 = (s.perform (.detach t)).2 := by
  have ha := h.attached t
  have hfreed : Alike (s.modifyTab t Tab.cutOff) (s'.modifyTab t Tab.cutOff) := by
    obtain ⟨registry, journal, rfl, hp, he⟩ := h
    exact ⟨registry, journal, rfl, hp, he⟩
  have htabs : s'.tab? t = s.tab? t ∧ s'.alive = s.alive ∧ s'.view.listener = s.view.listener := by
    obtain ⟨_, _, rfl, _⟩ := h
    exact ⟨rfl, rfl, rfl⟩
  have hfarewell : (s'.modifyTab t Tab.cutOff).farewell t = (s.modifyTab t Tab.cutOff).farewell t := by
    refine farewell_eq t ?_
    rw [view_cutOff, view_cutOff]
    exact htabs.2.2
  unfold perform
  dsimp only
  rw [ha, htabs.1, htabs.2.1, announceDetached_eq, announceDetached_eq, hfarewell]
  split
  · exact ⟨hfreed.note _, rfl⟩
  · exact ⟨hfreed, rfl⟩

theorem Alike.terminate (h : Alike s s') (hs : s.Sound) (id : TabId) :
    Alike (s.perform (.terminate id)).1 (s'.perform (.terminate id)).1 ∧
      (s'.perform (.terminate id)).2 = (s.perform (.terminate id)).2 := by
  unfold perform
  dsimp only
  rw [h.registered hs id]
  split
  · exact ⟨h, rfl⟩
  · next t _ =>
    rw [h.attached t]
    exact ⟨h.strike id, rfl⟩

/-- What a duty does, unless it closes the connection, does not depend on the order. -/
theorem Alike.perform (h : Alike s s') (hs : s.Sound) (d : Duty)
    (open_ : d = .closeIfIdle → s.hasLive = true ∨ s.connection.connected = false) :
    Alike (s.perform d).1 (s'.perform d).1 ∧ (s'.perform d).2 = (s.perform d).2 := by
  cases d with
  | detach t => exact h.detach t
  | terminate id => exact h.terminate hs id
  | closeIfIdle =>
    rw [perform_closeIfIdle, perform_closeIfIdle, h.hasLive]
    rcases open_ rfl with hl | hc
    · rw [if_pos hl, if_pos hl]
      exact ⟨h, rfl⟩
    · rw [close_of_disconnected hc, close_of_disconnected (by rw [h.connection]; exact hc)]
      split <;> exact ⟨h, rfl⟩

theorem disconnected_perform (hc : s.connection.connected = false) (d : Duty) :
    (s.perform d).1.connection.connected = false := by
  cases d with
  | detach t =>
    rw [connection_detach]
    exact hc
  | terminate id =>
    rw [registry_terminate]
    exact hc
  | closeIfIdle =>
    rw [perform_closeIfIdle, close_of_disconnected hc]
    split <;> exact hc

/-- Once the connection is gone, nothing depends on the order. -/
theorem Alike.unwind_disconnected (h : Alike s s') (hs : s.Sound)
    (hc : s.connection.connected = false) (duties : List Duty) :
    Alike (s.unwind duties) (s'.unwind duties) := by
  induction s, duties using unwind.induct generalizing s' with
  | case1 s =>
    rw [unwind, unwind]
    exact h
  | case2 s d rest ih =>
    obtain ⟨hp, hd⟩ := h.perform hs d fun _ => Or.inr hc
    rw [unwind, unwind, hd]
    exact ih hp (hs.perform d) (disconnected_perform hc d)

/-! ### One registered instance after the other -/

/-- What becomes of a session without a connection when a registered instance is detached. -/
def released (s : State) (r : TabId × Instance) : State :=
  if s.isAttached r.2 then (s.perform (.detach r.2)).1.strike r.1 else (s.perform (.detach r.2)).1

theorem Sound.released (hs : s.Sound) (r : TabId × Instance) : (s.released r).Sound := by
  unfold State.released
  split
  · exact View.Sound.struck (hs.perform _) _
  · exact hs.perform _

theorem Attentive.released (ha : s.Attentive) (r : TabId × Instance) : (s.released r).Attentive := by
  unfold State.released
  split
  · exact (ha.perform _).of_eq id rfl rfl rfl rfl
  · exact ha.perform _

theorem connection_released (s : State) (r : TabId × Instance) :
    (s.released r).connection = s.connection := by
  unfold released
  split <;> exact connection_detach s r.2

theorem mem_registry_released {r x : TabId × Instance} (hx : x ∈ s.registry) (hne : x.1 ≠ r.1) :
    x ∈ (s.released r).registry := by
  unfold released
  split
  · show x ∈ (s.perform (.detach r.2)).1.registry.filter _
    rw [registry_detach]
    exact List.mem_filter.mpr ⟨hx, bne_iff_ne.mpr hne⟩
  · rw [registry_detach]
    exact hx

theorem unwind_detach (hs : s.Sound) (ha : s.Attentive) (hc : s.connection.connected = false)
    {r : TabId × Instance} (hr : r ∈ s.registry) (rest : List Duty) :
    s.unwind (.detach r.2 :: rest) = (s.released r).unwind rest := by
  have hs' := hs.perform (.detach r.2)
  have hreg : (s.perform (.detach r.2)).1.registered? r.1 = some r.2 := by
    show (s.perform (.detach r.2)).1.registry.lookup r.1 = _
    rw [registry_detach]
    exact lookup_of_mem hs.keys hr
  rw [unwind]
  unfold released
  cases h : s.isAttached r.2 with
  | false =>
    rw [duties_detach_of_unattached h]
    rfl
  | true =>
    have hterm : (s.perform (.detach r.2)).1.perform (.terminate r.1) =
        ((s.perform (.detach r.2)).1.strike r.1, [.closeIfIdle]) := by
      rw [State.perform.eq_2]
      simp only [hreg, attached_detach, if_true, Bool.false_eq_true, if_false]
    have hidle : ((s.perform (.detach r.2)).1.strike r.1).perform .closeIfIdle =
        ((s.perform (.detach r.2)).1.strike r.1, []) := by
      rw [perform_closeIfIdle, close_of_disconnected]
      · split <;> rfl
      · exact disconnected_perform hc _
    rw [duties_detach ha.alive h (hs.own r.1 r.2 hr), if_pos rfl, List.singleton_append, unwind, hterm,
      List.singleton_append, unwind, hidle]
    rfl

/-- Registered instances are detached one after the other. -/
theorem unwind_map_detach (l : List (TabId × Instance)) (hs : s.Sound) (ha : s.Attentive)
    (hc : s.connection.connected = false) (hl : ∀ r ∈ l, r ∈ s.registry) (keys : (l.map (·.1)).Nodup)
    (rest : List Duty) : s.unwind (l.map (.detach ·.2) ++ rest) = (l.foldl released s).unwind rest := by
  induction l generalizing s with
  | nil => rfl
  | cons r l ih =>
    obtain ⟨hr, hkeys⟩ := List.nodup_cons.mp keys
    have hne : ∀ x ∈ l, x.1 ≠ r.1 := fun x hx he => hr (List.mem_map.mpr ⟨x, hx, he⟩)
    show s.unwind (.detach r.2 :: (l.map (.detach ·.2) ++ rest)) = _
    rw [unwind_detach hs ha hc (hl r (List.mem_cons_self ..))]
    refine ih (hs.released r) (ha.released r) ?_ (fun x hx => ?_) hkeys
    · rw [connection_released]
      exact hc
    · exact mem_registry_released (hl x (List.mem_cons_of_mem _ hx)) (hne x hx)

theorem Sound.foldl_released (hs : s.Sound) (l : List (TabId × Instance)) :
    (l.foldl State.released s).Sound := by
  induction l generalizing s with
  | nil => exact hs
  | cons r l ih => exact ih (hs.released r)

theorem connection_foldl_released (s : State) (l : List (TabId × Instance)) :
    (l.foldl released s).connection = s.connection := by
  induction l generalizing s with
  | nil => rfl
  | cons r l ih => exact (ih (s.released r)).trans (connection_released s r)

/-! ### In another order -/

theorem Alike.released (h : Alike s s') (r : TabId × Instance) :
    Alike (s.released r) (s'.released r) := by
  unfold State.released
  rw [h.attached r.2]
  split
  · exact (h.detach r.2).1.strike r.1
  · exact (h.detach r.2).1

theorem Alike.foldl_released (h : Alike s s') (l : List (TabId × Instance)) :
    Alike (l.foldl State.released s) (l.foldl State.released s') := by
  induction l generalizing s s' with
  | nil => exact h
  | cons r l ih => exact ih (h.released r)

/-- What is noted when an instance is released. -/
def partings (s : State) (t : Instance) : List Entry := if s.isAttached t then s.farewell t else []

theorem released_eq (s : State) (r : TabId × Instance) : s.released r =
    { s with
      tabs := s.tabs.modify r.2 Tab.cutOff
      registry := s.registry.filter fun x => !(s.isAttached r.2 && x.1 == r.1)
      journal := s.journal ++ s.partings r.2 } := by
  unfold released partings
  cases ha : s.isAttached r.2 with
  | true =>
    have hl : (s.modifyTab r.2 Tab.cutOff).farewell r.2 = s.farewell r.2 :=
      farewell_eq r.2 (by rw [view_cutOff]; rfl)
    unfold perform
    simp only [ha, if_true]
    rw [announceDetached_eq, hl]
    rfl
  | false =>
    unfold perform
    simp only [ha, Bool.false_eq_true, if_false, Bool.false_and, Bool.not_false, List.filter_true,
      List.append_nil]
    rfl

theorem tabEvents_partings (s : State) {t u : Instance} (h : u ≠ t) : tabEvents u (s.partings t) = [] := by
  unfold partings
  split
  · rw [← tabEvents_filter, filter_farewell, if_neg h]
    rfl
  · rfl

theorem partings_released (s : State) (r : TabId × Instance) {t : Instance} (h : t ≠ r.2) :
    (s.released r).isAttached t = s.isAttached t ∧ (s.released r).partings t = s.partings t := by
  have ha : (s.released r).isAttached t = s.isAttached t := by
    rw [released_eq]
    show (s.modifyTab r.2 Tab.cutOff).view.attached t = _
    rw [view_cutOff]
    exact (View.attached_setAttached s.view r.2 t false).trans (if_neg h)
  have hl : (s.released r).view.listener = s.view.listener := by
    rw [released_eq]
    show (s.modifyTab r.2 Tab.cutOff).view.listener = _
    rw [view_cutOff]
    rfl
  unfold partings
  rw [ha, farewell_eq t hl]
  exact ⟨rfl, rfl⟩

/-- Two instances can be released in either order. -/
theorem released_comm (s : State) {r x : TabId × Instance} (h : r.2 ≠ x.2) :
    Alike ((s.released r).released x) ((s.released x).released r) := by
  obtain ⟨hax, hpx⟩ := partings_released s r h.symm
  obtain ⟨har, hpr⟩ := partings_released s x h
  rw [released_eq (s.released r), released_eq (s.released x), hax, hpx, har, hpr, released_eq s r,
    released_eq s x]
  dsimp only
  rw [List.modify_modify_ne _ _ _ h]
  refine ⟨_, _, rfl, ?_, fun t => ?_⟩
  · dsimp only
    rw [List.filter_filter, List.filter_filter]
    refine List.Perm.of_eq (List.filter_congr fun y _ => ?_)
    exact Bool.and_comm _ _
  · simp only [tabEvents_append]
    by_cases ht : t = r.2
    · rw [tabEvents_partings s (show t ≠ x.2 from ht ▸ h)]
      simp
    · rw [tabEvents_partings s ht]
      simp

theorem alike_of_perm {l l' : List (TabId × Instance)} (hp : l.Perm l') (distinct : (l.map (·.2)).Nodup)
    (s : State) : Alike (l.foldl released s) (l'.foldl released s) := by
  induction hp generalizing s with
  | nil => exact .refl s
  | cons r hp ih => exact ih (List.nodup_cons.mp distinct).2 (s.released r)
  | swap r x l =>
    have hne : x.2 ≠ r.2 := fun he =>
      (List.nodup_cons.mp distinct).1 (List.mem_map.mpr ⟨r, List.mem_cons_self .., he.symm⟩)
    exact (released_comm s hne).foldl_released l
  | trans hp _ ih ih' =>
    exact (ih distinct s).trans (ih' ((hp.map _).nodup_iff.mp distinct) s)

/-- No instance is registered twice. -/
theorem Sound.nodup_instances (hs : s.Sound) : (s.registry.map (·.2)).Nodup := by
  refine List.Nodup.map_on (fun x hx y hy h => ?_) (List.Nodup.of_map _ hs.keys)
  have hid := (hs.own x.1 x.2 hx).symm.trans (h ▸ hs.own y.1 y.2 hy)
  exact Prod.ext (Option.some.inj hid) h

/-! ### Cascades -/

theorem Alike.close (h : Alike s s') : Alike s.close.1 s'.close.1 := by
  obtain ⟨registry, journal, rfl, hp, he⟩ := h
  unfold State.close
  have hl : ({ s with registry, journal } : State).listens = s.listens := rfl
  dsimp only
  rw [hl]
  split
  · split
    · refine ⟨registry, journal ++ [.connectionClosed], rfl, hp, fun t => ?_⟩
      show _ = tabEvents t (s.journal ++ [.connectionClosed])
      rw [tabEvents_append, tabEvents_append, he t]
    · exact ⟨registry, journal, rfl, hp, he⟩
  · exact ⟨registry, journal, rfl, hp, he⟩

theorem disconnected_close (s : State) : s.close.1.connection.connected = false := by
  unfold close
  split
  · split <;> rfl
  · next hc => exact Bool.eq_false_iff.mpr hc

/-- The connection closes, and every registered instance is detached in the order of the registry. -/
theorem close_unwind_eq (hs : s.Sound) (ha : s.Attentive) (hc : s.connection.connected = true)
    (rest : List Duty) :
    s.close.1.unwind (s.close.2 ++ rest) = (s.registry.foldl released s.close.1).unwind rest := by
  rw [ha.duties_close hc]
  refine unwind_map_detach s.registry hs.close ha.close (disconnected_close s) (fun r hr => ?_) hs.keys
    rest
  rw [registry_close]
  exact hr

theorem Alike.close_unwind (h : Alike s s') (hs : s.Sound) (ha : s.Attentive)
    (hc : s.connection.connected = true) (rest : List Duty) :
    Alike (s.close.1.unwind (s.close.2 ++ rest)) (s'.close.1.unwind (s'.close.2 ++ rest)) := by
  have hs' := h.sound hs
  have hc' : s'.connection.connected = true := by
    rw [h.connection]
    exact hc
  rw [close_unwind_eq hs ha hc, close_unwind_eq hs' (h.attentive ha) hc']
  have hdrained : Alike (s.registry.foldl State.released s.close.1)
      (s'.registry.foldl State.released s'.close.1) :=
    (h.close.foldl_released s.registry).trans
      (alike_of_perm h.perm.symm hs.nodup_instances s'.close.1)
  refine hdrained.unwind_disconnected (hs.close.foldl_released _) ?_ rest
  rw [connection_foldl_released]
  exact disconnected_close s

/-- A cascade ends alike for every order of the registry. -/
theorem Alike.unwind (h : Alike s s') (hs : s.Sound) (ha : s.Attentive) (duties : List Duty) :
    Alike (s.unwind duties) (s'.unwind duties) := by
  induction s, duties using unwind.induct generalizing s' with
  | case1 s =>
    rw [State.unwind, State.unwind]
    exact h
  | case2 s d rest ih =>
    by_cases hd : d = .closeIfIdle ∧ s.hasLive = false ∧ s.connection.connected = true
    · obtain ⟨rfl, hl, hc⟩ := hd
      rw [State.unwind, State.unwind, perform_closeIfIdle, perform_closeIfIdle, h.hasLive, hl]
      exact h.close_unwind hs ha hc rest
    · have stays : d = .closeIfIdle → s.hasLive = true ∨ s.connection.connected = false := by
        rintro rfl
        cases hl : s.hasLive with
        | true => exact Or.inl rfl
        | false => exact Or.inr (Bool.eq_false_iff.mpr fun hc => hd ⟨rfl, hl, hc⟩)
      obtain ⟨hp, hduties⟩ := h.perform hs d stays
      rw [State.unwind, State.unwind, hduties]
      exact ih hp (hs.perform d) (ha.perform d)

theorem Alike.fire (h : Alike s s') (hs : s.Sound) (ha : s.Attentive) (k : Trigger) :
    Alike (s.fire k) (s'.fire k) := by
  cases k with
  | close =>
    cases hc : s.connection.connected with
    | true =>
      have hu := h.close_unwind hs ha hc []
      rw [List.append_nil, List.append_nil] at hu
      exact hu
    | false =>
      have hc' : s'.connection.connected = false := by
        rw [h.connection]
        exact hc
      show Alike (s.close.1.unwind s.close.2) (s'.close.1.unwind s'.close.2)
      rw [close_of_disconnected hc, close_of_disconnected hc']
      exact h.unwind hs ha []
  | detached t => exact h.unwind hs ha _
  | terminated id => exact h.unwind hs ha _

/-! ### Actions -/

end State
end RemoteDebug.Engine
