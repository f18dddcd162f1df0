import Mathlib.Data.List.Nodup
import Mathlib.Data.List.Perm.Basic
import RemoteDebug.Engine.Association

/-! Lists of pairs as maps: what looking up a key gives after the list was changed.

The registry, the queues of a table and its receivers are such lists. Where the
keys of a list are distinct, membership and look-up say the same, and the order
of the list does not matter to a look-up. -/
namespace RemoteDebug

variable {κ α β : Type} [DecidableEq κ]

theorem mem_of_lookup {l : List (κ × α)} {k : κ} {v : α} (h : l.lookup k = some v) : (k, v) ∈ l := by
  obtain ⟨a, b, rfl, _⟩ := List.lookup_eq_some_iff.mp h
  simp

theorem lookup_of_mem {l : List (κ × α)} (hn : (l.map (·.1)).Nodup) {k : κ} {v : α}
    (h : (k, v) ∈ l) : l.lookup k = some v := by
  induction l with
  | nil => cases h
  | cons e l ih =>
    simp only [List.map_cons, List.nodup_cons] at hn
    rw [List.lookup_cons]
    rcases List.mem_cons.mp h with rfl | h
    · simp
    · have hne : k ≠ e.1 := fun he => hn.1 (he ▸ List.mem_map_of_mem h)
      rw [beq_false_of_ne hne]
      exact ih hn.2 h

theorem lookup_eq_some_iff_mem {l : List (κ × α)} (hn : (l.map (·.1)).Nodup) {k : κ} {v : α} :
    l.lookup k = some v ↔ (k, v) ∈ l :=
  ⟨mem_of_lookup, lookup_of_mem hn⟩

theorem lookup_perm {l l' : List (κ × α)} (h : l.Perm l') (hn : (l.map (·.1)).Nodup) (k : κ) :
    l.lookup k = l'.lookup k := by
  have hn' : (l'.map (·.1)).Nodup := (h.map _).nodup_iff.mp hn
  apply Option.ext
  intro v
  rw [lookup_eq_some_iff_mem hn, lookup_eq_some_iff_mem hn', h.mem_iff]

theorem lookup_filter_ne (l : List (κ × α)) (k k' : κ) :
    (l.filter (·.1 != k)).lookup k' = if k' = k then none else l.lookup k' := by
  induction l with
  | nil => simp
  | cons e l ih =>
    rw [List.filter_cons, List.lookup_cons]
    by_cases he : e.1 = k
    · simp only [he, bne_self_eq_false, Bool.false_eq_true, if_false, ih]
      split
      · rfl
      · next hk => rw [beq_false_of_ne hk]
    · have hb : (e.1 != k) = true := by simpa using he
      rw [if_pos hb, List.lookup_cons, ih]
      by_cases hk : k' = e.1
      · simp only [hk, beq_self_eq_true, he, if_false]
      · rw [beq_false_of_ne hk]

theorem filter_ne_of_lookup_none {l : List (κ × α)} {k : κ} (h : l.lookup k = none) :
    l.filter (·.1 != k) = l := by
  rw [List.lookup_eq_none_iff] at h
  refine List.filter_eq_self.mpr fun e he => ?_
  have hne : k ≠ e.1 := by simpa using h e he
  exact bne_iff_ne.mpr (Ne.symm hne)

theorem lookup_map_value (l : List (κ × α)) (f : α → β) (k : κ) :
    (l.map fun e => (e.1, f e.2)).lookup k = (l.lookup k).map f := by
  induction l with
  | nil => rfl
  | cons e l ih =>
    rw [List.map_cons, List.lookup_cons, List.lookup_cons, ih]
    cases k == e.1 <;> rfl

/-- Changing the values of some keys in place. -/
theorem lookup_map_at (l : List (κ × α)) (p : κ → Prop) [DecidablePred p] (f : α → α) (k : κ) :
    (l.map fun e => if p e.1 then (e.1, f e.2) else e).lookup k =
      if p k then (l.lookup k).map f else l.lookup k := by
  induction l with
  | nil => simp
  | cons e l ih =>
    have hfst : (if p e.1 then (e.1, f e.2) else e).1 = e.1 := by split <;> rfl
    rw [List.map_cons, List.lookup_cons, List.lookup_cons, ih, hfst]
    by_cases hk : k = e.1
    · subst hk
      rw [beq_self_eq_true]
      by_cases hp : p e.1
      · simp only [hp, if_true, Option.map_some]
      · simp only [hp, if_false]
    · rw [beq_false_of_ne hk]

omit [DecidableEq κ] in
theorem map_fst_map_at (l : List (κ × α)) (p : κ → Prop) [DecidablePred p] (f : α → α) :
    (l.map fun e => if p e.1 then (e.1, f e.2) else e).map (·.1) = l.map (·.1) := by
  rw [List.map_map]
  apply List.map_congr_left
  intro e _
  simp only [Function.comp_apply]
  split <;> rfl

omit [DecidableEq κ] in
theorem nodup_map_fst_filter {l : List (κ × α)} (hn : (l.map (·.1)).Nodup) (p : κ × α → Bool) :
    ((l.filter p).map (·.1)).Nodup :=
  hn.sublist (List.filter_sublist.map _)

/-! ### Setting the value of a key -/

theorem lookup_assign (k k' : κ) (v : α) (l : List (κ × α)) :
    (assign k v l).lookup k' = if k' = k then some v else l.lookup k' := by
  induction l with
  | nil =>
    simp only [assign, List.lookup_cons, List.lookup_nil]
    by_cases h : k' = k
    · simp [h]
    · simp [h, beq_false_of_ne h]
  | cons e l ih =>
    obtain ⟨a, w⟩ := e
    unfold assign
    by_cases ha : a = k
    · simp only [ha, if_true, List.lookup_cons]
      by_cases h : k' = k
      · simp [h]
      · simp [h, beq_false_of_ne h]
    · simp only [ha, if_false, List.lookup_cons, ih]
      by_cases h : k' = a
      · have hk : ¬ k' = k := fun he => ha (h ▸ he)
        simp only [hk, if_false]
      · simp only [beq_false_of_ne h]

theorem mem_of_mem_assign {k : κ} {v : α} {l : List (κ × α)} {x : κ × α} (h : x ∈ assign k v l) :
    x = (k, v) ∨ x ∈ l := by
  induction l with
  | nil => exact Or.inl (List.mem_singleton.mp h)
  | cons e l ih =>
    unfold assign at h
    split at h
    · exact (List.mem_cons.mp h).imp_right (List.mem_cons_of_mem _)
    · rcases List.mem_cons.mp h with rfl | h
      · exact Or.inr (List.mem_cons_self ..)
      · exact (ih h).imp_right (List.mem_cons_of_mem _)

theorem mem_map_fst_assign {k k' : κ} {v : α} {l : List (κ × α)} :
    k' ∈ (assign k v l).map (·.1) ↔ k' = k ∨ k' ∈ l.map (·.1) := by
  induction l with
  | nil => simp [assign]
  | cons e l ih =>
    obtain ⟨a, w⟩ := e
    unfold assign
    split
    · next ha => simp [ha]
    · simp only [List.map_cons, List.mem_cons, ih]
      tauto

theorem nodup_map_fst_assign {k : κ} {v : α} {l : List (κ × α)} (hn : (l.map (·.1)).Nodup) :
    ((assign k v l).map (·.1)).Nodup := by
  induction l with
  | nil => simp [assign]
  | cons e l ih =>
    obtain ⟨a, w⟩ := e
    rw [List.map_cons, List.nodup_cons] at hn
    unfold assign
    split
    · next ha =>
      subst ha
      exact List.nodup_cons.mpr hn
    · next ha =>
      refine List.nodup_cons.mpr ⟨fun hm => ?_, ih hn.2⟩
      rcases mem_map_fst_assign.mp hm with e | hm
      · exact ha e
      · exact hn.1 hm

theorem mem_assign {k k' : κ} {v w : α} {l : List (κ × α)} (hn : (l.map (·.1)).Nodup) :
    (k', w) ∈ assign k v l ↔ (k' = k ∧ w = v) ∨ (k' ≠ k ∧ (k', w) ∈ l) := by
  rw [← lookup_eq_some_iff_mem (nodup_map_fst_assign hn), lookup_assign, ← lookup_eq_some_iff_mem hn]
  split
  · next h => simp [h, eq_comm]
  · next h => simp [h]

end RemoteDebug
