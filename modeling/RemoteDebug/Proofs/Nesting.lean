import RemoteDebug.Proofs.Parts

/-! What the reader gives.

Whatever is read nests no deeper than the reader allows, and the keys of its objects are in order. The
reader of a container is given the reader of the values inside it, so one lemma for each container
carries both from the inside to the outside. -/
namespace RemoteDebug.Json

variable {depth : Nat}

theorem depthItems_le {items : List Json} : depthItems items ≤ depth ↔ ∀ v ∈ items, v.depth ≤ depth := by
  induction items with
  | nil => simp [depthItems]
  | cons v items ih => rw [depthItems, Nat.max_le, ih, List.forall_mem_cons]

theorem depthFields_le {fields : List (String × Json)} :
    depthFields fields ≤ depth ↔ ∀ f ∈ fields, f.2.depth ≤ depth := by
  induction fields with
  | nil => simp [depthFields]
  | cons f fields ih => rw [depthFields, Nat.max_le, ih, List.forall_mem_cons]

theorem canonicalItems_iff {items : List Json} : CanonicalItems items ↔ ∀ v ∈ items, v.Canonical := by
  induction items with
  | nil => simp [CanonicalItems]
  | cons v items ih => rw [CanonicalItems, ih, List.forall_mem_cons]

theorem canonicalFields_iff {fields : List (String × Json)} :
    CanonicalFields fields ↔ ∀ f ∈ fields, f.2.Canonical := by
  induction fields with
  | nil => simp [CanonicalFields]
  | cons f fields ih => rw [CanonicalFields, ih, List.forall_mem_cons]

/-! ### Fields in order -/

/-- The keys of the fields strictly increase. -/
def Ordered (fields : List (String × Json)) : Prop := fields.Pairwise fun a b => a.1 < b.1

theorem mem_insert {key : String} {v : Json} {fields : List (String × Json)} {f : String × Json}
    (h : f ∈ insert key v fields) : f = (key, v) ∨ f ∈ fields := by
  induction fields with
  | nil => exact Or.inl (List.mem_singleton.mp h)
  | cons g fields ih =>
    unfold insert at h
    split at h
    · exact (List.mem_cons.mp h).imp_right (List.mem_cons_of_mem _)
    split at h
    · exact List.mem_cons.mp h
    · rcases List.mem_cons.mp h with h | h
      · exact Or.inr (h ▸ List.mem_cons_self ..)
      · exact (ih h).imp_right (List.mem_cons_of_mem _)

theorem Ordered.insert {key : String} {v : Json} {fields : List (String × Json)} (h : Ordered fields) :
    Ordered (insert key v fields) := by
  induction fields with
  | nil => exact List.pairwise_singleton ..
  | cons g fields ih =>
    obtain ⟨hg, hrest⟩ := List.pairwise_cons.mp h
    unfold Json.insert
    split
    · next he => exact List.pairwise_cons.mpr ⟨he ▸ hg, hrest⟩
    · next hne =>
      split
      · next hlt =>
        refine List.pairwise_cons.mpr ⟨fun f hf => ?_, h⟩
        rcases List.mem_cons.mp hf with rfl | hf
        · exact hlt
        · exact String.lt_trans hlt (hg f hf)
      · next hnlt =>
        refine List.pairwise_cons.mpr ⟨fun f hf => ?_, ih hrest⟩
        rcases mem_insert hf with rfl | hf
        · exact Decidable.byContradiction fun h => hne (String.le_antisymm h hnlt)
        · exact hg f hf

/-! ### The reader -/

namespace Reader

variable {item : Octets → Result (Json × Octets)} {input rest : Octets} {v : Json}

/-- A value that is in order and nests at most so deep. -/
structure Tame (depth : Nat) (v : Json) : Prop where
  nested : v.depth ≤ depth
  canonical : v.Canonical

/-- Whatever is read is tame. -/
def Tames (depth : Nat) (item : Octets → Result (Json × Octets)) : Prop :=
  ∀ {input v rest}, item input = .ok (v, rest) → Tame depth v

theorem tame_arr {items : List Json} (h : ∀ v ∈ items, Tame depth v) : Tame (depth + 1) (.arr items) where
  nested := Nat.succ_le_succ (depthItems_le.mpr fun v hv => (h v hv).nested)
  canonical := canonicalItems_iff.mpr fun v hv => (h v hv).canonical

theorem tame_obj {fields : List (String × Json)} (ordered : Ordered fields)
    (h : ∀ f ∈ fields, Tame depth f.2) : Tame (depth + 1) (.obj fields) where
  nested := Nat.succ_le_succ (depthFields_le.mpr fun f hf => (h f hf).nested)
  canonical := ⟨ordered, canonicalFields_iff.mpr fun f hf => (h f hf).canonical⟩

theorem tame_moreItems (tames : Tames depth item) {steps : Nat} {done : List Json}
    (hdone : ∀ v ∈ done, Tame depth v) (h : moreItems item steps done input = .ok (v, rest)) :
    Tame (depth + 1) v := by
  induction steps generalizing done input with
  | zero => cases h
  | succ steps ih =>
    rcases moreItems_eq_ok h with ⟨rfl, -⟩ | ⟨_, w, _, -, hw, h⟩
    · exact tame_arr fun v hv => hdone v (List.mem_reverse.mp hv)
    · exact ih (List.forall_mem_cons.mpr ⟨tames hw, hdone⟩) h

theorem tame_items (tames : Tames depth item) (h : items item input = .ok (v, rest)) :
    Tame (depth + 1) v := by
  rcases items_eq_ok h with ⟨rfl, -⟩ | ⟨w, _, hw, h⟩
  · exact tame_arr fun _ hv => by cases hv
  · exact tame_moreItems tames (List.forall_mem_singleton.mpr (tames hw)) h

theorem forall_mem_insert {P : Json → Prop} {key : String} {v : Json} {fields : List (String × Json)}
    (hv : P v) (h : ∀ f ∈ fields, P f.2) : ∀ f ∈ insert key v fields, P f.2 := by
  intro f hf
  rcases mem_insert hf with rfl | hf
  · exact hv
  · exact h f hf

theorem tame_moreFields (tames : Tames depth item) {steps : Nat} {done : List (String × Json)}
    (ordered : Ordered done) (hdone : ∀ f ∈ done, Tame depth f.2)
    (h : moreFields item steps done input = .ok (v, rest)) : Tame (depth + 1) v := by
  induction steps generalizing done input with
  | zero => cases h
  | succ steps ih =>
    rcases moreFields_eq_ok h with ⟨rfl, -⟩ | ⟨_, _, f, _, -, -, hf, h⟩
    · exact tame_obj ordered hdone
    · obtain ⟨_, _, -, -, hw⟩ := field_eq_ok hf
      exact ih ordered.insert (forall_mem_insert (tames hw) hdone) h

theorem tame_fields (tames : Tames depth item) (h : fields item input = .ok (v, rest)) :
    Tame (depth + 1) v := by
  rcases fields_eq_ok h with ⟨rfl, -⟩ | ⟨_, f, _, -, hf, h⟩
  · exact tame_obj .nil fun _ hf => by cases hf
  · obtain ⟨_, _, -, -, hw⟩ := field_eq_ok hf
    exact tame_moreFields tames (List.pairwise_singleton ..) (List.forall_mem_singleton.mpr (tames hw)) h

theorem IsScalar.tame (h : IsScalar v) : Tame depth v := by
  cases v <;> first | exact ⟨Nat.zero_le _, trivial⟩ | exact h.elim

theorem Shape.tame (h : Shape depth input v rest) (inner : ∀ d, d + 1 = depth → Tames d (value d)) :
    Tame depth v := by
  cases h with
  | literal named =>
    rcases named with rfl | ⟨b, rfl⟩
    · exact IsScalar.tame trivial
    · exact IsScalar.tame trivial
  | negative h => exact (isScalar_number h).tame
  | number h => exact (isScalar_number h).tame
  | string h => exact IsScalar.tame trivial
  | items h => exact tame_items (inner _ rfl) h
  | fields h => exact tame_fields (inner _ rfl) h

theorem tames_value (depth : Nat) : Tames depth (value depth) := by
  induction depth with
  | zero => exact fun h => (shape_of_value h).tame fun _ hd => absurd hd (Nat.succ_ne_zero _)
  | succ depth ih => exact fun h => (shape_of_value h).tame fun _ hd => Nat.succ.inj hd ▸ ih

/-- What is read from a whole text nests within the limit, and its keys are in order. -/
theorem tame_parse (h : parse input = .ok v) : Tame depthLimit v := by
  unfold parse at h
  obtain ⟨⟨w, r⟩, hw, h⟩ := bind_eq_ok.mp h
  dsimp only at h
  split at h
  · cases h
    exact tames_value depthLimit hw
  · cases h

end Reader
end RemoteDebug.Json
