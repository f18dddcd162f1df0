import RemoteDebug.Proofs.Lines

/-! Reading a stream that grows.

What has been read from the octets received so far is read alike from any longer stream
(`next_append`), so a reader that is handed a stream in parts reads the frames of the whole. A
frame takes an octet at least, so the number that bounds the frames in `readings` never shows: all
that is available is the next thing read and what is available behind it (`available_cons`). -/
namespace RemoteDebug.Wire

variable {input line rest : Octets} {k : Headers} {r : Reading} {ended : Bool} {n m : Nat}

/-! ### What follows does not change what is read -/

theorem line?_eq_some_iff : line? input = some (line, rest) ↔
    ∃ inner, 0x0A ∉ inner ∧ line = inner ++ [0x0A] ∧ input = line ++ rest := by
  constructor
  · intro h
    by_cases hfeed : 0x0A ∈ input
    · obtain ⟨inner, behind, rfl, hinner⟩ := List.eq_append_cons_of_mem hfeed
      have hline := line?_fed hinner behind
      rw [List.append_assoc, List.singleton_append, h] at hline
      cases hline
      exact ⟨inner, hinner, rfl, by simp⟩
    · rw [line?_eq_none hfeed] at h
      cases h
  · rintro ⟨inner, hinner, rfl, rfl⟩
    exact line?_fed hinner rest

theorem line?_eq_none_iff : line? input = none ↔ 0x0A ∉ input := by
  refine ⟨fun h hfeed => ?_, line?_eq_none⟩
  obtain ⟨inner, behind, rfl, hinner⟩ := List.eq_append_cons_of_mem hfeed
  have hline := line?_fed hinner behind
  rw [List.append_assoc, List.singleton_append, h] at hline
  cases hline

theorem line?_append (h : line? input = some (line, rest)) (more : Octets) :
    line? (input ++ more) = some (line, rest ++ more) := by
  obtain ⟨inner, hinner, rfl, rfl⟩ := line?_eq_some_iff.mp h
  exact line?_eq_some_iff.mpr ⟨inner, hinner, rfl, List.append_assoc ..⟩

theorem readBody_append (h : readBody false k input = some (r, rest)) (ended : Bool) (more : Octets) :
    readBody ended k (input ++ more) = some (r, rest ++ more) := by
  unfold readBody at h ⊢
  cases htool : k.tool with
  | none =>
    rw [htool] at h
    cases h
    rfl
  | some tool =>
    cases hlength : k.length with
    | none =>
      rw [htool, hlength] at h
      cases h
      rfl
    | some length =>
      rw [htool, hlength] at h
      simp only at h ⊢
      by_cases hlong : maxLength < length
      · rw [if_pos hlong] at h ⊢
        cases h
        rfl
      rw [if_neg hlong] at h ⊢
      by_cases hwhole : (input.take length).length = length
      · have hle : length ≤ input.length := by
          rw [List.length_take] at hwhole
          omega
        rw [if_pos hwhole] at h
        rw [List.take_append_of_le_length hle, if_pos hwhole, List.drop_append_of_le_length hle]
        cases hcontent : contentOf (input.take length) with
        | ok content =>
          rw [hcontent] at h
          cases h
          rfl
        | error fault =>
          rw [hcontent] at h
          cases h
          rfl
      · rw [if_neg hwhole] at h
        cases h

theorem readHeaders_append (h : readHeaders false n k input = some (r, rest)) (hn : n ≤ m) (ended : Bool)
    (more : Octets) : readHeaders ended m k (input ++ more) = some (r, rest ++ more) := by
  induction n generalizing k input m with
  | zero => cases h
  | succ n ih =>
    obtain ⟨m, rfl⟩ : ∃ i, m = i + 1 := ⟨m - 1, by omega⟩
    rw [readHeaders] at h ⊢
    cases hline : line? input with
    | none =>
      rw [hline] at h
      cases h
    | some parts =>
      rw [hline] at h
      rw [line?_append hline more]
      simp only at h ⊢
      cases hstep : lineStep k parts.1 with
      | more k' =>
        rw [hstep] at h
        exact ih h (by omega)
      | complete =>
        rw [hstep] at h
        exact readBody_append h ended more
      | failed e =>
        rw [hstep] at h
        cases h
        rfl

/-- What is read before the end of the stream is known does not hang on what follows. -/
theorem next_append (h : next false input = some (r, rest)) (ended : Bool) (more : Octets) :
    next ended (input ++ more) = some (r, rest ++ more) :=
  readHeaders_append h (by simp) ended more

/-- What may come behind octets is nothing, once the stream is known to have ended. -/
def Extends (ended ended' : Bool) (more : Octets) : Prop := ended = true → ended' = true ∧ more = []

theorem extends_nil (ended : Bool) : Extends ended ended [] := fun h => ⟨h, rfl⟩

theorem next_extends {ended' : Bool} {more : Octets} (h : next ended input = some (r, rest))
    (hmore : Extends ended ended' more) : next ended' (input ++ more) = some (r, rest ++ more) := by
  cases ended with
  | false => exact next_append h ended' more
  | true =>
    obtain ⟨rfl, rfl⟩ := hmore rfl
    rwa [List.append_nil, List.append_nil]

/-! ### A frame takes octets -/

theorem length_readBody_le (h : readBody ended k input = some (r, rest)) : rest.length ≤ input.length := by
  unfold readBody at h
  split at h
  · cases h
    exact Nat.le_refl _
  · cases h
    exact Nat.le_refl _
  · split at h
    · cases h
      exact Nat.le_refl _
    · simp only at h
      split at h
      · split at h <;>
        · cases h
          simp
      · split at h
        · cases h
          exact Nat.zero_le _
        · cases h

theorem length_lt_of_line? (h : line? input = some (line, rest)) : rest.length < input.length := by
  obtain ⟨inner, -, rfl, rfl⟩ := line?_eq_some_iff.mp h
  simp
  omega

theorem length_lt_of_readHeaders (h : readHeaders ended n k input = some (r, rest)) (hr : r.goesOn = true) :
    rest.length < input.length := by
  induction n generalizing k input with
  | zero => cases h
  | succ n ih =>
    rw [readHeaders] at h
    cases hline : line? input with
    | some parts =>
      obtain ⟨line, behind⟩ := parts
      have hlt := length_lt_of_line? hline
      rw [hline] at h
      simp only at h
      split at h
      · exact Nat.lt_trans (ih h) hlt
      · exact Nat.lt_of_le_of_lt (length_readBody_le h) hlt
      · cases h
        cases hr
    | none =>
      rw [hline] at h
      simp only at h
      split at h
      · cases h
      split at h
      · cases h
        split at hr <;> cases hr
      next hne =>
        have hpos : 0 < input.length := List.length_pos_iff.mpr (by simpa using hne)
        split at h
        · cases h
          split at hr <;> cases hr
        · have := length_readBody_le h
          simp only [List.length_nil] at this
          omega
        · cases h
          cases hr

theorem length_lt_of_next (h : next ended input = some (r, rest)) (hr : r.goesOn = true) :
    rest.length < input.length :=
  length_lt_of_readHeaders h hr

/-! ### An ended stream always gives an answer -/

theorem readBody_ended (k : Headers) (input : Octets) : ∃ reading, readBody true k input = some reading := by
  unfold readBody
  split
  · exact ⟨_, rfl⟩
  · exact ⟨_, rfl⟩
  · split
    · exact ⟨_, rfl⟩
    · simp only
      split
      · split <;> exact ⟨_, rfl⟩
      · exact ⟨_, rfl⟩

theorem readHeaders_ended (k : Headers) (hn : input.length < n) :
    ∃ reading, readHeaders true n k input = some reading := by
  induction n generalizing k input with
  | zero => exact absurd hn (Nat.not_lt_zero _)
  | succ n ih =>
    rw [readHeaders]
    cases hline : line? input with
    | some parts =>
      obtain ⟨line, behind⟩ := parts
      have hlt := length_lt_of_line? hline
      simp only
      split
      · exact ih _ (by omega)
      · exact readBody_ended k behind
      · exact ⟨_, rfl⟩
    | none =>
      simp only [Bool.not_true, Bool.false_eq_true, if_false]
      split
      · exact ⟨_, rfl⟩
      · split
        · exact ⟨_, rfl⟩
        · exact readBody_ended k []
        · exact ⟨_, rfl⟩

theorem next_ended (input : Octets) : ∃ reading, next true input = some reading :=
  readHeaders_ended {} (Nat.lt_succ_self _)

theorem readMessage_eq_iff {reading : Reading × Octets} :
    readMessage input = reading ↔ next true input = some reading := by
  obtain ⟨reading', h⟩ := next_ended input
  unfold readMessage
  rw [h, Option.getD_some, Option.some.injEq]

/-! ### All that is available -/

theorem readings_eq_of_lt (hn : input.length < n) (hm : input.length < m) :
    readings ended n input = readings ended m input := by
  induction n generalizing input m with
  | zero => exact absurd hn (Nat.not_lt_zero _)
  | succ n ih =>
    obtain ⟨m, rfl⟩ : ∃ i, m = i + 1 := ⟨m - 1, by omega⟩
    rw [readings, readings]
    cases hnext : next ended input with
    | none => rfl
    | some reading =>
      obtain ⟨r, rest⟩ := reading
      simp only
      split
      · next hr =>
        have hlt := length_lt_of_next hnext hr
        rw [ih (m := m) (by omega) (by omega)]
      · rfl

theorem available_of_none (h : next ended input = none) : available ended input = ([], input) := by
  unfold available
  rw [readings, h]

/-- The frame that is read next comes first, and then what is available behind it. -/
theorem available_cons (h : next ended input = some (r, rest)) (hr : r.goesOn = true) :
    available ended input = (r :: (available ended rest).1, (available ended rest).2) := by
  have hlt := length_lt_of_next h hr
  have hrest : readings ended input.length rest = available ended rest := readings_eq_of_lt hlt (Nat.lt_succ_self _)
  unfold available
  rw [readings, h]
  simp only [hr, if_true]
  rw [hrest]
  rfl

/-- The last thing that is read is the last that is available. -/
theorem available_last (h : next ended input = some (r, rest)) (hr : r.goesOn = false) :
    available ended input = ([r], rest) := by
  unfold available
  rw [readings, h]
  simp [hr]

/-- The frames that are available, from the last one to the first. -/
@[elab_as_elim]
theorem available_induction {motive : Octets → Prop} (ended : Bool)
    (none : ∀ input, next ended input = none → motive input)
    (last : ∀ input r rest, next ended input = some (r, rest) → r.goesOn = false → motive input)
    (cons : ∀ input r rest, next ended input = some (r, rest) → r.goesOn = true → motive rest → motive input)
    (input : Octets) : motive input := by
  induction hn : input.length using Nat.strongRecOn generalizing input with
  | ind n ih =>
    cases hnext : next ended input with
    | none => exact none input hnext
    | some reading =>
      obtain ⟨r, rest⟩ := reading
      cases hr : r.goesOn with
      | false => exact last input r rest hnext hr
      | true => exact cons input r rest hnext hr (ih rest.length (hn ▸ length_lt_of_next hnext hr) rest rfl)

/-- Behind all that is available there is nothing to read yet. -/
theorem next_left (h : (available ended input).1.all (·.goesOn) = true) :
    next ended (available ended input).2 = none := by
  induction input using available_induction ended with
  | none input hnext => rwa [available_of_none hnext]
  | last input r rest hnext hr => simp [available_last hnext hr, hr] at h
  | cons input r rest hnext hr ih =>
    rw [available_cons hnext hr] at h ⊢
    exact ih (by simpa [hr] using h)

/-- What follows does not change what is available already. -/
theorem available_prefix (input : Octets) (ended : Bool) (more : Octets) :
    (available false input).1 <+: (available ended (input ++ more)).1 := by
  induction input using available_induction false with
  | none input hnext => simp [available_of_none hnext]
  | last input r rest hnext hr =>
    simp [available_last hnext hr, available_last (next_append hnext ended more) hr]
  | cons input r rest hnext hr ih =>
    rw [available_cons hnext hr, available_cons (next_append hnext ended more) hr, List.cons_prefix_cons]
    exact ⟨rfl, ih⟩

/-- At most the last thing that is available is an end, and the last one of a whole stream is. -/
theorem exists_available (ended : Bool) (input : Octets) : ∃ frames, (∀ r ∈ frames, r.goesOn = true) ∧
    (ended = false ∧ (available ended input).1 = frames ∨
      ∃ last, (available ended input).1 = frames ++ [last] ∧ last.goesOn = false) := by
  induction input using available_induction ended with
  | none input hnext =>
    have hended : ended = false := by
      cases ended with
      | false => rfl
      | true =>
        obtain ⟨reading, hreading⟩ := next_ended input
        simp [hreading] at hnext
    exact ⟨[], by simp, Or.inl ⟨hended, by rw [available_of_none hnext]⟩⟩
  | last input r rest hnext hr =>
    exact ⟨[], by simp, Or.inr ⟨r, by rw [available_last hnext hr, List.nil_append], hr⟩⟩
  | cons input r rest hnext hr ih =>
    obtain ⟨frames, hframes, hrest⟩ := ih
    refine ⟨r :: frames, List.forall_mem_cons.mpr ⟨hr, hframes⟩, ?_⟩
    rw [available_cons hnext hr]
    rcases hrest with ⟨hended, hrest⟩ | ⟨last, hrest, hlast⟩
    · exact Or.inl ⟨hended, congrArg _ hrest⟩
    · exact Or.inr ⟨last, by rw [hrest, List.cons_append], hlast⟩

theorem readAll_ends (input : Octets) : (readAll input).1.all (·.goesOn) = false := by
  obtain ⟨frames, -, ⟨hended, -⟩ | ⟨last, havailable, hlast⟩⟩ := exists_available true input
  · cases hended
  · unfold readAll
    simp [havailable, hlast]

end RemoteDebug.Wire
