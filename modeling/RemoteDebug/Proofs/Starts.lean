import RemoteDebug.Proofs.Growth
import RemoteDebug.Socket.State

/-! The starts of a connection.

Starts take turns, and until one of them succeeds nothing but the starts themselves changes (`Starts`).
The one that succeeds connects (`Connects`), and all that wait behind it end with it. -/
namespace RemoteDebug.Socket
open Protocol Wire

/-- What a listener is told, and by which name. -/
def Entry.heard? : Entry → Option (String × Heard)
  | .heard listener what => some (listener, what)
  | _ => none

/-- How a start ends. -/
def Entry.outcome? : Entry → Option (Nat × Except TransportError Unit)
  | .started attempt result => some (attempt, result)
  | _ => none

/-- Starts that end alike. -/
def ends (attempts : List Attempt) (result : Except TransportError Unit) : List Entry :=
  attempts.map fun a => .started a.id result

/-- Starts in a queue, once it is the turn of the first of them. -/
def advance : List Attempt → List Attempt
  | [] => []
  | a :: rest => { a with stage := .connecting } :: rest

/-- Only the first start is past the queue. -/
structure Lined (attempts : List Attempt) : Prop where
  first : ∀ a ∈ attempts.head?, a.stage ≠ .queued
  others : ∀ a ∈ attempts.tail, a.stage = .queued

theorem lined_nil : Lined [] := ⟨by simp, by simp⟩

theorem lined_cons {a : Attempt} {rest : List Attempt} (ha : a.stage ≠ .queued)
    (hrest : ∀ b ∈ rest, b.stage = .queued) : Lined (a :: rest) :=
  ⟨by simpa using ha, hrest⟩

/-- Those behind the first are still in the queue. -/
theorem Lined.queued {attempts : List Attempt} (h : Lined attempts) {a : Attempt} {rest : List Attempt}
    (hattempts : attempts = a :: rest) : ∀ b ∈ rest, b.stage = .queued := by
  rw [hattempts] at h
  exact h.others

theorem lined_advance {attempts : List Attempt} (h : ∀ a ∈ attempts, a.stage = .queued) :
    Lined (advance attempts) := by
  cases attempts with
  | nil => exact lined_nil
  | cons a rest => exact lined_cons (by simp) (List.forall_mem_cons.mp h).2

namespace State

variable {s t u : State} {id : Nat} {a : Attempt} {rest : List Attempt}
  {result settled : Except TransportError Unit} {e : TransportError} {line behind : Octets}

/-! ### The greeting -/

/-- Nothing but the greeting itself is taken for it. -/
theorem greetingFault?_eq_none_iff :
    greetingFault? line = none ↔ line = Text.Utf8.encode greeting := by
  unfold greetingFault?
  cases hchars : Text.Utf8.decodeChars line with
  | error fault =>
    refine iff_of_false (by simp) fun hline => ?_
    rw [Text.Utf8.decodeChars_eq_ok_iff.mpr hline] at hchars
    cases hchars
  | ok chars =>
    have hline := Text.Utf8.decodeChars_eq_ok_iff.mp hchars
    by_cases h : String.ofList chars = greeting
    · refine iff_of_true (if_pos h) ?_
      rw [hline, ← h]
      simp [Text.Utf8.encode]
    · refine iff_of_false (by simp [h]) fun hgreeting => h ?_
      have := hchars.symm.trans (Text.Utf8.decodeChars_eq_ok_iff.mpr hgreeting)
      rw [Except.ok.inj this, String.ofList_toList]

theorem line?_greeting (rest : Octets) :
    line? (Text.Utf8.encode greeting ++ rest) = some (Text.Utf8.encode greeting, rest) :=
  line?_eq_some_iff.mpr ⟨(Text.Utf8.encode greeting).dropLast, by decide, by decide, rfl⟩

/-! ### The journal -/

def heard (s : State) : List (String × Heard) := s.journal.filterMap Entry.heard?

def outcomes (s : State) : List (Nat × Except TransportError Unit) := s.journal.filterMap Entry.outcome?

@[simp] theorem heard_record (s : State) (e : Entry) : (s.record e).heard = s.heard ++ e.heard?.toList := by
  simp [heard, record, List.filterMap_append, List.filterMap_cons]
  cases e.heard? <;> rfl

@[simp] theorem outcomes_record (s : State) (e : Entry) :
    (s.record e).outcomes = s.outcomes ++ e.outcome?.toList := by
  simp [outcomes, record, List.filterMap_append, List.filterMap_cons]
  cases e.outcome? <;> rfl

@[simp] theorem filterMap_heard_ends (attempts : List Attempt) (result : Except TransportError Unit) :
    (ends attempts result).filterMap Entry.heard? = [] := by
  simp [ends, Entry.heard?]

@[simp] theorem filterMap_outcome_ends (attempts : List Attempt) (result : Except TransportError Unit) :
    (ends attempts result).filterMap Entry.outcome? = attempts.map fun a => (a.id, result) := by
  induction attempts with
  | nil => rfl
  | cons a attempts ih =>
    rw [List.map_cons, ← ih]
    rfl

/-! ### Nothing but the starts changes -/

/-- Only the starts in progress and what is noted of them differ. -/
structure Starts (s t : State) : Prop where
  eq : t = { s with attempts := t.attempts, journal := t.journal }
  heard : t.heard = s.heard
  outcomes : ∃ new, t.outcomes = s.outcomes ++ new

namespace Starts

theorem refl (s : State) : Starts s s := ⟨rfl, rfl, [], by simp⟩

theorem trans (h : Starts s t) (h' : Starts t u) : Starts s u where
  eq := by rw [h'.eq, h.eq]
  heard := h'.heard.trans h.heard
  outcomes := by
    obtain ⟨new, hnew⟩ := h.outcomes
    obtain ⟨more, hmore⟩ := h'.outcomes
    exact ⟨new ++ more, by rw [hmore, hnew, List.append_assoc]⟩

theorem phase (h : Starts s t) : t.phase = s.phase := by rw [h.eq]

theorem link (h : Starts s t) : t.link = s.link := by rw [h.eq]

theorem stopping (h : Starts s t) : t.stopping = s.stopping := by rw [h.eq]

theorem writing (h : Starts s t) : t.writing = s.writing := by rw [h.eq]

theorem outbound (h : Starts s t) : t.outbound = s.outbound := by rw [h.eq]

theorem attempts (s : State) (attempts : List Attempt) : Starts s { s with attempts } :=
  ⟨rfl, rfl, [], by simp [State.outcomes]⟩

theorem record (s : State) {e : Entry} (h : e.heard? = none) : Starts s (s.record e) :=
  ⟨rfl, by simp [h], _, outcomes_record s e⟩

theorem ended (s : State) (attempts : List Attempt) (result : Except TransportError Unit) :
    Starts s { s with attempts := [], journal := s.journal ++ ends attempts result } :=
  ⟨rfl, by simp [State.heard], _, List.filterMap_append⟩

end Starts

/-! ### Waiting starts -/

theorem settled_of_notStarted (h : s.phase = .notStarted) : s.settled? = none := by
  unfold settled?
  rw [h]

theorem settled_of_connected (h : s.phase = .connected) : s.settled? = some (.ok ()) := by
  unfold settled?
  rw [h]

theorem foldl_started (attempts : List Attempt) (result : Except TransportError Unit) (s : State) :
    attempts.foldl (fun s a => s.record (.started a.id result)) s =
      { s with journal := s.journal ++ ends attempts result } := by
  induction attempts generalizing s with
  | nil => simp [ends]
  | cons a attempts ih =>
    rw [List.foldl_cons, ih]
    simp [State.record, ends]

theorem promote_of_unsettled (h : ∀ a ∈ s.attempts.head?, a.stage = .queued) (hs : s.settled? = none) :
    s.promote = { s with attempts := advance s.attempts } := by
  obtain ⟨address, phase, listener, attempts, link, stopping, writing, outbound, journal⟩ := s
  cases attempts with
  | nil => rfl
  | cons a rest =>
    obtain ⟨id, stage⟩ := a
    obtain rfl : stage = .queued := h _ rfl
    unfold promote
    rw [hs]
    rfl

theorem promote_of_settled (h : ∀ a ∈ s.attempts.head?, a.stage = .queued) (hs : s.settled? = some settled) :
    s.promote = { s with attempts := [], journal := s.journal ++ ends s.attempts settled } := by
  obtain ⟨address, phase, listener, attempts, link, stopping, writing, outbound, journal⟩ := s
  cases attempts with
  | nil => simp [promote, ends]
  | cons a rest =>
    obtain ⟨id, stage⟩ := a
    obtain rfl : stage = .queued := h _ rfl
    unfold promote
    rw [hs]
    simp only
    rw [foldl_started]

theorem promote_of_first (h : ∀ a ∈ s.attempts.head?, a.stage ≠ .queued) : s.promote = s := by
  unfold promote
  split
  · next heq =>
    rw [heq] at h
    exact absurd rfl (h _ rfl)
  · rfl

/-- The first of all starts goes on at once. -/
theorem start_of_unsettled (h : s.attempts = []) (hs : s.settled? = none) (id : Nat) :
    s.start id = { s with attempts := [⟨id, .connecting⟩] } := by
  have hpromote := promote_of_unsettled (s := { s with attempts := s.attempts ++ [({ id } : Attempt)] })
    (by simp [h]) hs
  unfold start
  rw [hpromote]
  simp [h, advance]

/-- A start that needs no stream ends at once. -/
theorem start_of_settled (h : s.attempts = []) (hs : s.settled? = some settled) (id : Nat) :
    s.start id = s.record (.started id settled) := by
  have hpromote := promote_of_settled (s := { s with attempts := s.attempts ++ [({ id } : Attempt)] })
    (by simp [h]) hs
  unfold start
  rw [hpromote]
  simp [h, record, ends]

/-- A start waits behind others. -/
theorem start_of_waiting (h : s.attempts ≠ []) (hlined : Lined s.attempts) (id : Nat) :
    s.start id = { s with attempts := s.attempts ++ [⟨id, .queued⟩] } := by
  refine promote_of_first ?_
  rw [List.head?_append_of_ne_nil _ h]
  exact hlined.first

/-- A start that ends lets the next one go on. -/
theorem conclude_of_unsettled (h : s.attempts = a :: rest) (hrest : ∀ b ∈ rest, b.stage = .queued)
    (hs : s.settled? = none) (result : Except TransportError Unit) :
    s.conclude result =
      { s with attempts := advance rest, journal := s.journal ++ [.started a.id result] } := by
  unfold conclude
  rw [h]
  exact promote_of_unsettled (fun b hb => hrest b (List.mem_of_mem_head? hb)) hs

/-- Where no stream is needed any more, all starts end that wait behind one that ends. -/
theorem conclude_of_settled (h : s.attempts = a :: rest) (hrest : ∀ b ∈ rest, b.stage = .queued)
    (hs : s.settled? = some settled) (result : Except TransportError Unit) :
    s.conclude result =
      { s with attempts := [], journal := s.journal ++ .started a.id result :: ends rest settled } := by
  have hpromote := promote_of_settled (s := { s with attempts := rest }.record (.started a.id result))
    (fun b hb => hrest b (List.mem_of_mem_head? hb)) hs
  unfold conclude
  rw [h]
  simp only
  rw [hpromote]
  simp [record]

/-! ### A start that does not succeed -/

theorem starts_promote (s : State) : Starts s s.promote := by
  by_cases h : ∀ a ∈ s.attempts.head?, a.stage = .queued
  · cases hs : s.settled? with
    | none =>
      rw [promote_of_unsettled h hs]
      exact .attempts s _
    | some settled =>
      rw [promote_of_settled h hs]
      exact .ended s _ _
  · rw [promote_of_first]
    · exact .refl s
    · intro a ha hstage
      refine h fun b hb => ?_
      rw [← Option.mem_unique ha hb, hstage]

theorem starts_start (s : State) (id : Nat) : Starts s (s.start id) :=
  (Starts.attempts s _).trans (starts_promote _)

theorem starts_conclude (s : State) (result : Except TransportError Unit) : Starts s (s.conclude result) := by
  unfold conclude
  cases s.attempts with
  | nil => exact .refl s
  | cons a rest => exact ((Starts.attempts s rest).trans (.record _ rfl)).trans (starts_promote _)

theorem starts_giveUp (s : State) (e : TransportError) : Starts s (s.giveUp e) :=
  (Starts.record s rfl).trans (starts_conclude _ _)

theorem starts_opened (s : State) : Starts s s.opened := by
  unfold opened
  split
  · exact (Starts.attempts s _).trans (.record _ rfl)
  · exact .refl s

theorem starts_unopened (s : State) (cause : StreamFailure) : Starts s (s.unopened cause) := by
  unfold unopened
  split
  · exact starts_conclude s _
  · exact .refl s

theorem starts_timedOut (s : State) : Starts s s.timedOut := by
  unfold timedOut
  split
  · exact starts_conclude s _
  · exact starts_giveUp s _
  · exact .refl s

/-! ### The start that succeeds -/

/-- The first start has succeeded, and all that waited behind it. -/
def connect (s : State) (buffer : Octets) : State :=
  { s with
    phase := .connected, link := some { buffer }, writing := true, attempts := []
    journal := s.journal ++ ends s.attempts (.ok ()) }

theorem answered_of_fault (h : greetingFault? line = some e) (s : State) (behind : Octets) :
    s.answered line behind = s.giveUp e := by
  unfold answered
  rw [h]

theorem answered_of_closed (h : greetingFault? line = none) (hs : s.phase = .closed) (behind : Octets) :
    s.answered line behind = s.giveUp .alreadyClosed := by
  unfold answered
  rw [h]
  exact if_pos hs

theorem answered_of_open (h : greetingFault? line = none) (hs : s.phase ≠ .closed)
    (hattempts : s.attempts = a :: rest) (hrest : ∀ b ∈ rest, b.stage = .queued) (behind : Octets) :
    s.answered line behind = s.connect behind := by
  have hconclude := conclude_of_settled
    (s := { s with phase := .connected, link := some { buffer := behind }, writing := true }) hattempts hrest
    (settled_of_connected rfl) (.ok ())
  unfold answered connect
  rw [h]
  simp only
  rw [if_neg hs, hconclude, hattempts]
  rfl

/-- An answer ends a start, or else connects. -/
theorem answered_cases (hattempts : s.attempts = a :: rest) (hrest : ∀ b ∈ rest, b.stage = .queued)
    (line behind : Octets) : Starts s (s.answered line behind) ∨
      s.phase ≠ .closed ∧ s.answered line behind = s.connect behind := by
  cases hfault : greetingFault? line with
  | some e =>
    rw [answered_of_fault hfault]
    exact Or.inl (starts_giveUp s e)
  | none =>
    by_cases hs : s.phase = .closed
    · rw [answered_of_closed hfault hs]
      exact Or.inl (starts_giveUp s _)
    · exact Or.inr ⟨hs, answered_of_open hfault hs hattempts hrest behind⟩

/-! ### Starts stay in line -/

theorem lined_promote (h : ∀ a ∈ s.attempts.tail, a.stage = .queued) : Lined s.promote.attempts := by
  by_cases hfirst : ∀ a ∈ s.attempts.head?, a.stage ≠ .queued
  · rw [promote_of_first hfirst]
    exact ⟨hfirst, h⟩
  · obtain ⟨a, rest, hattempts⟩ : ∃ a rest, s.attempts = a :: rest := by
      cases hattempts : s.attempts with
      | nil => exact absurd (by simp [hattempts]) hfirst
      | cons a rest => exact ⟨a, rest, rfl⟩
    have hall : ∀ b ∈ s.attempts, b.stage = .queued := by
      rw [hattempts, List.head?_cons] at hfirst
      rw [hattempts] at h ⊢
      exact List.forall_mem_cons.mpr ⟨by simpa using hfirst, h⟩
    have hqueued : ∀ b ∈ s.attempts.head?, b.stage = .queued := fun b hb => hall b (List.mem_of_mem_head? hb)
    cases hs : s.settled? with
    | none =>
      rw [promote_of_unsettled hqueued hs]
      exact lined_advance hall
    | some settled =>
      rw [promote_of_settled hqueued hs]
      exact lined_nil

theorem lined_start (h : Lined s.attempts) (id : Nat) : Lined (s.start id).attempts := by
  refine lined_promote ?_
  cases hattempts : s.attempts with
  | nil => simp
  | cons a rest =>
    rw [hattempts] at h
    simpa [or_imp, forall_and] using h.others

theorem lined_conclude (h : Lined s.attempts) (result : Except TransportError Unit) :
    Lined (s.conclude result).attempts := by
  unfold conclude
  cases hattempts : s.attempts with
  | nil =>
    simp only
    rw [hattempts]
    exact lined_nil
  | cons a rest =>
    rw [hattempts] at h
    exact lined_promote fun b hb => h.others b (List.mem_of_mem_tail hb)

theorem lined_giveUp (h : Lined s.attempts) (e : TransportError) : Lined (s.giveUp e).attempts :=
  lined_conclude (s := s.record .hungUp) h _

theorem lined_opened (h : Lined s.attempts) : Lined s.opened.attempts := by
  unfold opened
  split
  · next heq => exact lined_cons (by simp) (h.queued heq)
  · exact h

theorem lined_unopened (h : Lined s.attempts) (cause : StreamFailure) : Lined (s.unopened cause).attempts := by
  unfold unopened
  split
  · exact lined_conclude h _
  · exact h

theorem lined_timedOut (h : Lined s.attempts) : Lined s.timedOut.attempts := by
  unfold timedOut
  split
  · exact lined_conclude h _
  · exact lined_giveUp h _
  · exact h

theorem lined_answered (h : Lined s.attempts) (line behind : Octets) : Lined (s.answered line behind).attempts := by
  unfold answered
  split
  · exact lined_giveUp h _
  · split
    · exact lined_giveUp h _
    · refine lined_conclude ?_ _
      exact h

end State

end RemoteDebug.Socket
