import RemoteDebug.Proofs.Life

/-! What becomes of a start.

A start that fails leaves the connection as it found it, so until the connection is closed the next
start has the same chance. Once it is closed no start succeeds any more, not even one that is answered
with the greeting then. -/
namespace RemoteDebug.Socket
open Protocol Wire
open Relation (ReflTransGen)

namespace State

variable {s t : State} {a : Action} {id : Nat} {rest : List Attempt}

/-! ### Outcomes -/

/-- An action that does not deal with the starts ends none. -/
theorem outcomes_act (h : Orderly s) (a : Action) :
    Starts s (s.act a) ∨ (∃ buffer, s.attempts ≠ [] ∧ s.phase = .notStarted ∧ s.act a = s.connect buffer) ∨
      (s.act a).outcomes = s.outcomes := by
  cases act_does h.lined a with
  | starts hstarts => exact Or.inl hstarts
  | connects buffer hwaiting hopen hconnect =>
    exact Or.inr (Or.inl ⟨buffer, hwaiting, h.notStarted hwaiting hopen, hconnect⟩)
  | listens l => exact Or.inr (Or.inr rfl)
  | closes => exact Or.inr (Or.inr (outcomes_close s))
  | drops => exact Or.inr (Or.inr (drop_keeps s).2.2)
  | deeds hdeeds => exact Or.inr (Or.inr (Deeds.aside hdeeds).outcomes)

theorem outcomes_connect (s : State) (buffer : Octets) :
    (s.connect buffer).outcomes = s.outcomes ++ s.attempts.map fun a => (a.id, .ok ()) := by
  simp [outcomes, connect]

/-- What is known of the starts stays known. -/
theorem outcomes_grow (h : Orderly s) (a : Action) : ∃ new, (s.act a).outcomes = s.outcomes ++ new := by
  rcases outcomes_act h a with hstarts | ⟨buffer, -, -, hconnect⟩ | houtcomes
  · exact hstarts.outcomes
  · exact ⟨_, hconnect ▸ outcomes_connect s buffer⟩
  · exact ⟨[], by rw [houtcomes, List.append_nil]⟩

/-- The first of several starts takes too long, and the next one goes on. -/
theorem timedOut_of_notStarted (hs : s.phase = .notStarted) (h : Lined s.attempts) {b : Attempt}
    (hattempts : s.attempts = b :: rest) : s.timedOut.phase = .notStarted ∧ s.timedOut.attempts = advance rest := by
  have hphase := (starts_timedOut s).phase.trans hs
  have hrest := h.queued hattempts
  refine ⟨hphase, ?_⟩
  obtain ⟨id, stage⟩ := b
  unfold timedOut
  rw [hattempts]
  cases stage with
  | queued => exact absurd rfl (h.first ⟨id, .queued⟩ (by simp [hattempts]))
  | connecting =>
    simp only
    rw [conclude_of_unsettled hattempts hrest (settled_of_notStarted hs)]
  | greeted received =>
    simp only
    unfold giveUp
    rw [conclude_of_unsettled (s := s.record .hungUp) hattempts hrest (settled_of_notStarted hs)]

end State

end RemoteDebug.Socket
