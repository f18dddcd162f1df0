import RemoteDebug.Proofs.Growth
import RemoteDebug.Proofs.Life

/-! What a reader hands out.

A reader that runs reads all that is available (`read_serving`). It tells of each message and, with the
last thing it reads, of the end of the stream; right behind the thing at which the connection is closed it
is told that it is. A reader at work does not look whether it is to stop, so what it tells of is the same
after that (`hears_of_closesAt`). -/
namespace RemoteDebug.Socket
open Protocol Wire

/-- What a listener is told of a thing that is read. -/
def told? : Reading → Option Heard
  | .message m => some (.message m)
  | .badBody _ => none
  | .finished | .failed _ => some .endOfStream

/-- What is noted of it. -/
def notice? : Reading → Option Notice
  | .badBody _ => some .malformedBody
  | .failed e => some (.readError e)
  | _ => none

namespace Listener

/-- The thing is the last one that the reader reads, or makes the listener close the connection. -/
def closesAt (l : Listener) (r : Reading) : Bool := (told? r).any l.closesOn || !r.goesOn

/-- What the listener is told at that thing. Unless the connection is closed already, that it is closed
comes right behind the thing at which it is. -/
def tells (l : Listener) (closed : Bool) (r : Reading) : List Heard :=
  (told? r).toList ++ if !closed && l.closesAt r then [.closed] else []

/-- What the listener is told of things that are read one after the other. -/
def hears (l : Listener) : (closed : Bool) → List Reading → List Heard
  | _, [] => []
  | closed, r :: rs => l.tells closed r ++ l.hears (closed || l.closesAt r) rs

def entries (l : Listener) (r : Reading) : List Entry :=
  (notice? r).toList.map .notice ++ (told? r).toList.map (.heard l.name)

theorem heard_entries (l : Listener) (r : Reading) :
    (l.entries r).filterMap Entry.heard? = (told? r).toList.map (l.name, ·) := by
  cases r <;> rfl

/-- A listener of what is closed already is told of what is read, and of nothing else. -/
theorem hears_of_closed (l : Listener) (rs : List Reading) : l.hears true rs = rs.filterMap told? := by
  induction rs with
  | nil => rfl
  | cons r rs ih =>
    rw [hears, tells, Bool.true_or, ih, List.filterMap_cons]
    cases told? r <;> simp

theorem hears_of_quiet {l : Listener} {first : List Reading} (h : ∀ r ∈ first, l.closesAt r = false)
    (rest : List Reading) : l.hears false (first ++ rest) = first.filterMap told? ++ l.hears false rest := by
  induction first with
  | nil => rfl
  | cons r first ih =>
    obtain ⟨hr, hfirst⟩ := List.forall_mem_cons.mp h
    rw [List.cons_append, hears, tells, hr, Bool.or_false, ih hfirst, List.filterMap_cons]
    cases told? r <;> simp

/-- The rest of what is read is told behind the end. -/
theorem hears_of_closesAt {l : Listener} {first : List Reading} {r : Reading}
    (h : ∀ r ∈ first, l.closesAt r = false) (hr : l.closesAt r = true) (rest : List Reading) :
    l.hears false (first ++ r :: rest) =
      (first ++ [r]).filterMap told? ++ .closed :: rest.filterMap told? := by
  rw [hears_of_quiet h, hears, tells, hr, Bool.or_true, hears_of_closed]
  cases htold : told? r <;> simp [htold]

end Listener

namespace State

variable {s t : State} {l : Listener} {link : Link} {r : Reading} {buffer : Octets} {n : Nat}

/-! ### One thing -/

theorem close_close (s : State) : s.close.close = s.close := close_of_closed (phase_close s)

/-- Whoever closes anyway need not be asked to. -/
theorem hear_close (s : State) (what : Heard) : (s.hear what).close = (s.tell what).close := by
  unfold hear
  split
  · exact close_close _
  · rfl

/-- The reader notes and tells what it has read, and then the connection may be closed. -/
theorem process_eq (h : s.listener = some l) (r : Reading) : s.process r =
    if l.closesAt r then { s with journal := s.journal ++ l.entries r }.close
    else { s with journal := s.journal ++ l.entries r } := by
  cases r with
  | message m => simp [process, hear, tell, h, Listener.closesAt, Listener.entries, told?, notice?, record, Reading.goesOn]
  | badBody fault => rfl
  | finished =>
    have htell : s.tell .endOfStream = { s with journal := s.journal ++ l.entries .finished } := by
      rw [tell_eq, h]
      rfl
    rw [if_pos (by simp [Listener.closesAt, Reading.goesOn]), ← htell]
    exact hear_close s .endOfStream
  | failed e =>
    have htell : (s.record (.notice (.readError e))).tell .endOfStream =
        { s with journal := s.journal ++ l.entries (.failed e) } := by
      rw [tell_eq]
      simp [record, h, Listener.entries, notice?, told?]
    rw [if_pos (by simp [Listener.closesAt, Reading.goesOn]), ← htell]
    exact hear_close _ .endOfStream

theorem close_told (h : s.listener = some l) (hphase : s.phase = .connected) : s.close =
    { s with
      phase := .closed, stopping := true, writing := false, outbound := []
      journal := s.journal ++ [.heard l.name .closed] } := by
  rw [close_of_connected hphase, tell_eq, h]
  rfl

/-! ### All that is buffered -/

/-- A reader with a link: it is to go on, or is at work still and will find out later. -/
structure Serving (s : State) (l : Listener) (link : Link) : Prop where
  at' : s.link = some link
  listener : s.listener = some l
  phase : s.phase = .connected ∧ s.stopping = false ∨ s.phase = .closed ∧ s.stopping = true ∧ s.isReading = true

/-- What a run of a reader comes to. -/
structure Served (s t : State) (l : Listener) (link : Link) : Prop where
  heard : t.heard = s.heard ++
    (l.hears (s.phase == .closed) (available link.ended link.buffer).1).map (l.name, ·)
  listener : t.listener = some l
  attempts : t.attempts = s.attempts
  closes : s.phase = .closed ∨ (∃ r ∈ (available link.ended link.buffer).1, l.closesAt r = true) →
    t.phase = .closed ∧ t.link = none
  goes : s.phase = .connected → (∀ r ∈ (available link.ended link.buffer).1, l.closesAt r = false) →
    t.phase = .connected ∧ t.stopping = false ∧
      t.link = some { link with buffer := (available link.ended link.buffer).2, reading := false }

theorem Serving.works (h : Serving s l link) : ¬ (s.stopping && !link.reading) = true := by
  rcases h.phase with ⟨-, hstopping⟩ | ⟨-, -, hreading⟩
  · simp [hstopping]
  · rw [isReading, h.at'] at hreading
    simp_all

/-- There is nothing to read: the reader waits, or is gone. -/
theorem turn_of_none (h : Serving s l link) (hnext : next link.ended link.buffer = none) :
    Served s s.turn l link ∧ s.turn.isReading = false := by
  have hturn : s.turn = s.rest link := by
    unfold turn
    rw [h.at']
    simp only [if_neg h.works, hnext]
  have havailable := available_of_none hnext
  rw [hturn]
  unfold rest
  rcases h.phase with ⟨hphase, hstopping⟩ | ⟨hphase, hstopping, -⟩
  · rw [if_neg (by simp [hstopping])]
    refine ⟨⟨?_, h.listener, rfl, ?_, ?_⟩, rfl⟩
    · simp [havailable, Listener.hears, heard]
    · simp [havailable, hphase]
    · intro _ _
      exact ⟨hphase, hstopping, by rw [havailable]⟩
  · rw [if_pos hstopping]
    refine ⟨⟨?_, h.listener, rfl, ?_, ?_⟩, rfl⟩
    · simp [havailable, Listener.hears, release, heard, Entry.heard?, record]
    · exact fun _ => ⟨hphase, rfl⟩
    · simp [hphase]

/-- The reader has taken something from the link, and has told of it. -/
def take (s : State) (l : Listener) (link : Link) (r : Reading) : State :=
  let t := { s with link := some link, journal := s.journal ++ l.entries r }
  if l.closesAt r then t.close else t

theorem turn_of_some (h : Serving s l link) (hnext : next link.ended link.buffer = some (r, buffer)) :
    s.turn = if r.goesOn then s.take l { link with buffer, reading := true } r
      else (s.take l { link with buffer, reading := true } r).release := by
  have hprocess := process_eq (s := { s with link := some { link with buffer, reading := true } }) h.listener r
  unfold turn
  rw [h.at']
  simp only [if_neg h.works, hnext, hprocess]
  rfl

/-- What the reader has taken is told, and then it may find the connection closed. -/
theorem Serving.take (h : Serving s l link) (r : Reading) (link' : Link) (hreading : link'.reading = true) :
    Serving (s.take l link' r) l link' ∧ (s.take l link' r).attempts = s.attempts ∧
      (s.take l link' r).phase = (if l.closesAt r then .closed else s.phase) ∧
      (s.take l link' r).heard = s.heard ++ (l.tells (s.phase == .closed) r).map (l.name, ·) := by
  obtain ⟨t, ht⟩ : ∃ t, t = { s with link := some link', journal := s.journal ++ l.entries r } := ⟨_, rfl⟩
  have hheard : t.heard = s.heard ++ (told? r).toList.map (l.name, ·) := by
    rw [ht, heard, List.filterMap_append, Listener.heard_entries]
    rfl
  have hlistener : t.listener = some l := by rw [ht]; exact h.listener
  have htake : s.take l link' r = if l.closesAt r then t.close else t := by rw [ht]; rfl
  rw [htake]
  by_cases hcloses : l.closesAt r = true
  · rw [if_pos hcloses, if_pos hcloses]
    rcases h.phase with ⟨hphase, -⟩ | ⟨hphase, hstopping, -⟩
    · rw [close_told hlistener (by rw [ht]; exact hphase)]
      refine ⟨⟨by rw [ht], hlistener, Or.inr ⟨rfl, rfl, ?_⟩⟩, by rw [ht], rfl, ?_⟩
      · simp [isReading, ht, hreading]
      · rw [heard, List.filterMap_append, ← heard, hheard]
        simp [hphase, hcloses, Entry.heard?, Listener.tells]
    · rw [close_of_closed (by rw [ht]; exact hphase)]
      refine ⟨⟨by rw [ht], hlistener, Or.inr ⟨?_, ?_, ?_⟩⟩, by rw [ht], ?_, ?_⟩
      all_goals simp_all [isReading, Listener.tells]
  · rw [if_neg hcloses, if_neg hcloses]
    refine ⟨⟨by rw [ht], hlistener, ?_⟩, by rw [ht], by rw [ht], ?_⟩
    · rcases h.phase with hphase | ⟨hphase, hstopping, -⟩
      · exact Or.inl (by rwa [ht])
      · exact Or.inr (by simp [ht, hphase, hstopping, isReading, hreading])
    · rw [hheard]
      simp [Listener.tells, hcloses]

/-- The last thing is read, and the reader is gone with it. -/
theorem Serving.last (h : Serving s l link) (hnext : next link.ended link.buffer = some (r, buffer))
    (hr : r.goesOn = false) : Served s s.turn l link ∧ s.turn.isReading = false := by
  have hcloses : l.closesAt r = true := by simp [Listener.closesAt, hr]
  have hturn := turn_of_some h hnext
  obtain ⟨hserving, hattempts, hphase, hheard⟩ := h.take r { link with buffer, reading := true } rfl
  rw [hr, if_neg (by simp)] at hturn
  rw [if_pos hcloses] at hphase
  rw [hturn]
  refine ⟨⟨?_, hserving.listener, hattempts, fun _ => ⟨hphase, rfl⟩, fun _ hnone => ?_⟩, rfl⟩
  · rw [available_last hnext hr, Listener.hears, Listener.hears, List.append_nil, ← hheard]
    exact (heard_record _ _).trans (List.append_nil _)
  · rw [available_last hnext hr] at hnone
    simp [hcloses] at hnone

/-- Something is read behind which more may follow. -/
theorem Serving.more (h : Serving s l link) (hnext : next link.ended link.buffer = some (r, buffer))
    (hr : r.goesOn = true) :
    let link' : Link := { link with buffer, reading := true }
    s.turn = s.take l link' r ∧ s.turn.isReading = true ∧
      ∀ u, Served (s.take l link' r) u l link' → Served s u l link := by
  intro link'
  have hturn := turn_of_some h hnext
  obtain ⟨hserving, hattempts, hphase, hheard⟩ := h.take r link' rfl
  rw [hr, if_pos rfl] at hturn
  refine ⟨hturn, by simp [hturn, isReading, hserving.at', link'], fun u hu => ?_⟩
  have havailable := available_cons hnext hr
  have hclosed : ((s.take l link' r).phase == .closed) = ((s.phase == .closed) || l.closesAt r) := by
    rw [hphase]
    cases l.closesAt r <;> simp
  refine ⟨?_, hu.listener, hu.attempts.trans hattempts, fun hover => hu.closes ?_, fun hs hnone => ?_⟩
  · rw [hu.heard, hheard, hclosed, havailable, Listener.hears, List.map_append, List.append_assoc]
  · rw [havailable] at hover
    rw [hphase]
    rcases hover with hs | ⟨r', hr', hcloses⟩
    · exact Or.inl (by simp [hs])
    · rcases List.mem_cons.mp hr' with rfl | hr'
      · exact Or.inl (if_pos hcloses)
      · exact Or.inr ⟨r', hr', hcloses⟩
  · rw [havailable] at hnone ⊢
    obtain ⟨hfirst, hrest⟩ := List.forall_mem_cons.mp hnone
    exact hu.goes (by rw [hphase, hfirst]; exact hs) hrest

theorem turns_serving (h : Serving s l link) (hn : link.buffer.length < n) :
    Served s (turns n s) l link ∧ (turns n s).isReading = false := by
  -- on the turns that are left: each one but the last takes octets out of the buffer
  induction n generalizing s link with
  | zero => exact absurd hn (Nat.not_lt_zero _)
  | succ n ih =>
    rw [turns]
    cases hnext : next link.ended link.buffer with
    | none =>
      obtain ⟨hserved, hidle⟩ := turn_of_none h hnext
      rw [hidle]
      exact ⟨hserved, hidle⟩
    | some reading =>
      obtain ⟨r, buffer⟩ := reading
      cases hr : r.goesOn with
      | false =>
        obtain ⟨hserved, hidle⟩ := h.last hnext hr
        rw [hidle]
        exact ⟨hserved, hidle⟩
      | true =>
        obtain ⟨hturn, hreading, hall⟩ := h.more hnext hr
        have hlt := length_lt_of_next hnext hr
        obtain ⟨hserved, hidle⟩ := ih (h.take r { link with buffer, reading := true } rfl).1
          (by simp only; omega)
        rw [if_pos hreading, hturn]
        exact ⟨hall _ hserved, hidle⟩

/-- A reader that runs reads all that is available, and then it waits or is gone. -/
theorem read_serving (h : Serving s l link) : Served s s.read l link ∧ s.read.isReading = false := by
  unfold read
  rw [h.at']
  exact turns_serving h (Nat.lt_succ_self _)

end State

end RemoteDebug.Socket
