import Mathlib.Logic.Relation
import RemoteDebug.Proofs.Starts

/-! The life of a connection.

Apart from the starts, all that happens to a connection is made of few deeds (`Deed`): its reader
takes from the link and tells the listener, its writer sends, and either may close it. No deed takes
place before a start has succeeded, and the first one that closes is the only one that tells so. -/
namespace RemoteDebug.Socket
open Protocol Wire
open Relation (ReflTransGen)

namespace State

/-- There is a reader, and it is at work or may begin. -/
def Works (s : State) : Prop := ∃ link, s.link = some link ∧ (link.reading = true ∨ s.stopping = false)

/-- What is done by the reader or the writer, or for them. -/
inductive Deed : State → State → Prop
  | tune {s : State} {old : Link} (link : Link) (h : s.link = some old) (hreading : link.reading = true → s.Works) :
      Deed s { s with link := some link }
  | part (s : State) : Deed s { s with link := none }
  | queue {s : State} (outbound : List Message) (h : s.phase = .notStarted → outbound = []) : Deed s { s with outbound }
  | note {s : State} (e : Entry) (h : e.heard? = none) (h' : e.outcome? = none) : Deed s (s.record e)
  | tell {s : State} (what : Heard) (h : s.Works) (hwhat : what ≠ .closed) : Deed s (s.tell what)
  | close {s : State} (h : s.link ≠ none ∨ s.outbound ≠ []) : Deed s s.close

abbrev Deeds : State → State → Prop := ReflTransGen Deed

variable {s t u : State} {a : Action} {what : Heard} {old : Link}

/-! ### Telling and closing -/

theorem tell_eq (s : State) (what : Heard) :
    s.tell what = { s with journal := s.journal ++ s.listener.toList.map fun l => .heard l.name what } := by
  obtain ⟨address, phase, listener, attempts, link, stopping, writing, outbound, journal⟩ := s
  cases listener with
  | none => simp [tell]
  | some l => rfl

theorem heard_tell (s : State) (what : Heard) :
    (s.tell what).heard = s.heard ++ s.listener.toList.map fun l => (l.name, what) := by
  rw [tell_eq]
  cases hl : s.listener <;> simp [heard, Entry.heard?]

theorem outcomes_tell (s : State) (what : Heard) : (s.tell what).outcomes = s.outcomes := by
  rw [tell_eq]
  cases hl : s.listener <;> simp [outcomes, Entry.outcome?]

theorem close_of_connected (h : s.phase = .connected) : s.close =
    { s with phase := .closed, stopping := true, writing := false, outbound := [] }.tell .closed := by
  unfold close
  rw [h]

theorem close_of_not_connected (h : s.phase ≠ .connected) : s.close = { s with phase := .closed } := by
  unfold close
  split
  · next heq => exact absurd heq h
  · rfl

theorem close_of_closed (h : s.phase = .closed) : s.close = s := by
  rw [close_of_not_connected (by simp [h]), ← h]

/-- Closing leaves the link to the reader, which may be at work. -/
theorem close_keeps (s : State) : s.close.phase = .closed ∧ s.close.link = s.link ∧ s.close.listener = s.listener ∧
    s.close.attempts = s.attempts := by
  by_cases h : s.phase = .connected
  · rw [close_of_connected h, tell_eq]
    exact ⟨rfl, rfl, rfl, rfl⟩
  · rw [close_of_not_connected h]
    exact ⟨rfl, rfl, rfl, rfl⟩

@[simp] theorem phase_close (s : State) : s.close.phase = .closed := (close_keeps s).1

@[simp] theorem link_close (s : State) : s.close.link = s.link := (close_keeps s).2.1

@[simp] theorem listener_close (s : State) : s.close.listener = s.listener := (close_keeps s).2.2.1

@[simp] theorem attempts_close (s : State) : s.close.attempts = s.attempts := (close_keeps s).2.2.2

@[simp] theorem outcomes_close (s : State) : s.close.outcomes = s.outcomes := by
  by_cases h : s.phase = .connected
  · rw [close_of_connected h, outcomes_tell]
    rfl
  · rw [close_of_not_connected h]
    rfl

@[simp] theorem link_tell (s : State) (what : Heard) : (s.tell what).link = s.link := by rw [tell_eq]

/-- Giving the connection up is not told. -/
theorem drop_keeps (s : State) : s.drop.phase = s.phase ∧ s.drop.heard = s.heard ∧ s.drop.outcomes = s.outcomes := by
  unfold drop
  split <;> exact ⟨rfl, rfl, rfl⟩

/-! ### Deeds -/

theorem deeds_release (s : State) : Deeds s s.release :=
  (ReflTransGen.single (Deed.part s)).tail (.note _ rfl rfl)

theorem deeds_hear (h : s.Works) (hwhat : what ≠ .closed) : Deeds s (s.hear what) := by
  have htell : Deeds s (s.tell what) := ReflTransGen.single (.tell what h hwhat)
  unfold hear
  split
  · refine htell.tail (.close (Or.inl ?_))
    obtain ⟨link, hlink, -⟩ := h
    simp [hlink]
  · exact htell

theorem link_hear (s : State) (what : Heard) : (s.hear what).link = s.link := by
  unfold hear
  split <;> simp

/-- Before the reader is gone it tells of what it has read. -/
theorem deeds_process (h : s.Works) (r : Reading) : Deeds s (s.process r) := by
  have hlink : s.link ≠ none := by
    obtain ⟨link, hlink, -⟩ := h
    simp [hlink]
  cases r with
  | message m => exact deeds_hear h (by simp)
  | badBody fault => exact ReflTransGen.single (.note _ rfl rfl)
  | finished =>
    refine (deeds_hear h (by simp)).tail (.close (Or.inl ?_))
    rwa [link_hear]
  | failed e =>
    have hnote : Deed s (s.record (.notice (.readError e))) := .note _ rfl rfl
    have htold : Deeds (s.record (.notice (.readError e))) ((s.record (.notice (.readError e))).hear .endOfStream) :=
      deeds_hear h (by simp)
    refine ReflTransGen.tail (ReflTransGen.head hnote htold) (.close (Or.inl ?_))
    rwa [link_hear]

/-- A reader that is not at work and is to stop does not work; every other one does. -/
theorem works_of_link {link : Link} (h : s.link = some link) (hgo : ¬ (s.stopping && !link.reading) = true) :
    s.Works := by
  refine ⟨link, h, ?_⟩
  cases hstopping : s.stopping with
  | false => exact Or.inr rfl
  | true => exact Or.inl (by simpa [hstopping] using hgo)

theorem deeds_turn (s : State) : Deeds s s.turn := by
  unfold turn
  split
  · exact ReflTransGen.refl
  · next link hlink =>
    split
    · exact deeds_release s
    · next hgo =>
      have hworks := works_of_link hlink hgo
      split
      · unfold rest
        split
        · exact deeds_release s
        · exact ReflTransGen.single (.tune _ hlink (by simp))
      · next r buffer hnext =>
        have htune := Deed.tune { link with buffer, reading := true } hlink fun _ => hworks
        have hprocess := (ReflTransGen.single htune).trans (deeds_process ⟨_, rfl, Or.inl rfl⟩ r)
        simp only
        split
        · exact hprocess
        · exact hprocess.trans (deeds_release _)

theorem deeds_turns (n : Nat) (s : State) : Deeds s (turns n s) := by
  induction n generalizing s with
  | zero => exact ReflTransGen.refl
  | succ n ih =>
    rw [turns]
    split
    · exact (deeds_turn s).trans (ih _)
    · exact deeds_turn s

theorem deeds_write (s : State) : Deeds s s.write := by
  unfold write
  split
  · exact ReflTransGen.refl
  · exact (ReflTransGen.single (Deed.queue [] fun _ => rfl)).tail (.note _ rfl rfl)

theorem deeds_unwritten (s : State) (cause : StreamFailure) : Deeds s (s.unwritten cause) := by
  unfold unwritten
  split
  · exact ReflTransGen.refl
  · next hne =>
    refine (ReflTransGen.single (Deed.note _ rfl rfl)).tail (.close (Or.inr ?_))
    simpa [record] using hne

theorem deeds_send (s : State) (m : Message) : Deeds s (s.send m).1 := by
  unfold send
  split
  · next h =>
    split
    · exact ReflTransGen.single (.queue _ (by simp [h]))
    · exact ReflTransGen.refl
  · exact ReflTransGen.refl
  · exact ReflTransGen.refl

/-- No start waits for an answer. -/
def Unanswered (s : State) : Prop := ∀ id received rest, s.attempts ≠ ⟨id, .greeted received⟩ :: rest

theorem unanswered_or_greeted (s : State) :
    s.Unanswered ∨ ∃ id received rest, s.attempts = ⟨id, .greeted received⟩ :: rest := by
  by_cases h : ∃ id received rest, s.attempts = ⟨id, .greeted received⟩ :: rest
  · exact Or.inr h
  · exact Or.inl fun id received rest hattempts => h ⟨id, received, rest, hattempts⟩

theorem deeds_arrive (h : s.Unanswered) (octets : Octets) : Deeds s (s.arrive octets) := by
  unfold arrive
  split
  · next heq => exact absurd heq (h _ _ _)
  · next link hlink _ =>
    split
    · exact ReflTransGen.refl
    · exact ReflTransGen.single (.tune _ hlink fun hreading => ⟨link, hlink, Or.inl hreading⟩)
  · exact ReflTransGen.refl

theorem deeds_finish (h : s.Unanswered) : Deeds s s.finish := by
  unfold finish
  split
  · next heq => exact absurd heq (h _ _ _)
  · next link hlink _ => exact ReflTransGen.single (.tune _ hlink fun hreading => ⟨link, hlink, Or.inl hreading⟩)
  · exact ReflTransGen.refl

theorem deeds_interrupted (h : s.Unanswered) (cause : StreamFailure) : Deeds s (s.interrupted cause) := by
  unfold interrupted
  split
  · next heq => exact absurd heq (h _ _ _)
  · next link hlink _ =>
    split
    · exact deeds_release s
    · next hgo =>
      split
      · exact ReflTransGen.refl
      · exact (deeds_process (works_of_link hlink hgo) _).trans (deeds_release _)
  · exact ReflTransGen.refl

/-! ### Actions -/

/-- What an action comes to. -/
inductive Does (s : State) : Action → Prop
  | starts {a : Action} (h : Starts s (s.act a)) (hlined : Lined (s.act a).attempts)
      (halone : s.phase = .connected → s.attempts = [] → (s.act a).attempts = []) : Does s a
  | connects {a : Action} (buffer : Octets) (hwaiting : s.attempts ≠ []) (hopen : s.phase ≠ .closed)
      (h : s.act a = s.connect buffer) : Does s a
  | listens (l : Listener) : Does s (.listen l)
  | closes : Does s .close
  | drops : Does s .drop
  | deeds {a : Action} (h : Deeds s (s.act a)) : Does s a

/-- Where a start waits there is no connection yet. -/
theorem does_of_waiting {b : Attempt} {rest : List Attempt} (hattempts : s.attempts = b :: rest) (ha : s.act a = t)
    (hstarts : Starts s t) (hlined : Lined t.attempts) : Does s a :=
  .starts (ha ▸ hstarts) (ha ▸ hlined) fun _ hnone => by simp [hattempts] at hnone

theorem does_answered (h : Lined s.attempts) {b : Attempt} {rest : List Attempt} (hattempts : s.attempts = b :: rest)
    (line behind : Octets) (ha : s.act a = s.answered line behind) : Does s a := by
  rcases answered_cases hattempts (h.queued hattempts) line behind with hstarts | ⟨hopen, hconnect⟩
  · exact does_of_waiting hattempts ha hstarts (lined_answered h line behind)
  · exact .connects behind (by simp [hattempts]) hopen (ha.trans hconnect)

theorem act_does (h : Lined s.attempts) (a : Action) : Does s a := by
  cases a with
  | listen l => exact .listens l
  | start id =>
    refine .starts (starts_start s id) (lined_start h id) fun hphase hattempts => ?_
    simp [act, start_of_settled hattempts (settled_of_connected hphase), record, hattempts]
  | opened => exact .starts (starts_opened s) (lined_opened h) fun _ hattempts => by simp [act, opened, hattempts]
  | unopened cause =>
    exact .starts (starts_unopened s cause) (lined_unopened h cause) fun _ hattempts => by
      simp [act, unopened, hattempts]
  | timedOut => exact .starts (starts_timedOut s) (lined_timedOut h) fun _ hattempts => by simp [act, timedOut, hattempts]
  | arrive octets =>
    rcases s.unanswered_or_greeted with hs | ⟨id, received, rest, hattempts⟩
    · exact .deeds (deeds_arrive hs octets)
    · cases hline : line? (received ++ octets) with
      | none =>
        have harrive : s.act (.arrive octets) = { s with attempts := ⟨id, .greeted (received ++ octets)⟩ :: rest } := by
          simp only [act, arrive, hattempts, hline]
        exact does_of_waiting hattempts harrive (.attempts s _) (lined_cons (by simp) (h.queued hattempts))
      | some parts =>
        refine does_answered h hattempts parts.1 parts.2 ?_
        simp only [act, arrive, hattempts, hline]
  | finish =>
    rcases s.unanswered_or_greeted with hs | ⟨id, received, rest, hattempts⟩
    · exact .deeds (deeds_finish hs)
    · refine does_answered h hattempts received [] ?_
      simp only [act, finish, hattempts]
  | interrupted cause =>
    rcases s.unanswered_or_greeted with hs | ⟨id, received, rest, hattempts⟩
    · exact .deeds (deeds_interrupted hs cause)
    · have hgiveUp : s.act (.interrupted cause) = s.giveUp (.stream cause) := by
        simp only [act, interrupted, hattempts]
      exact does_of_waiting hattempts hgiveUp (starts_giveUp s _) (lined_giveUp h _)
  | turn => exact .deeds (deeds_turn s)
  | read => exact .deeds (deeds_turns _ s)
  | write => exact .deeds (deeds_write s)
  | unwritten cause => exact .deeds (deeds_unwritten s cause)
  | send m => exact .deeds (deeds_send s m)
  | close => exact .closes
  | drop => exact .drops

/-! ### What holds after every history -/

/-- No reader and nothing to send before a start has succeeded, no start in progress afterwards, and
no reader that is to go on once it is closed. -/
structure Orderly (s : State) : Prop where
  idle : s.phase = .notStarted → s.link = none ∧ s.stopping = false ∧ s.outbound = []
  alone : s.phase = .connected → s.attempts = []
  stopping : s.phase = .closed → s.link = none ∨ s.stopping = true
  lined : Lined s.attempts

theorem orderly_new (address : String) : Orderly { address } :=
  ⟨fun _ => ⟨rfl, rfl, rfl⟩, fun _ => rfl, (by cases ·), lined_nil⟩

theorem Orderly.close (h : Orderly s) : Orderly s.close := by
  refine ⟨fun hphase => by simp at hphase, fun hphase => by simp at hphase, fun _ => ?_, by simpa using h.lined⟩
  cases hphase : s.phase with
  | notStarted => exact Or.inl (by simpa using (h.idle hphase).1)
  | connected =>
    rw [close_of_connected hphase, tell_eq]
    exact Or.inr rfl
  | closed =>
    rw [close_of_closed hphase]
    exact h.stopping hphase

theorem Deed.orderly (hdeed : Deed s t) (h : Orderly s) : Orderly t := by
  cases hdeed with
  | tune link hlink hreading =>
    -- there is a link, so a start has succeeded, and one that is closed is to stop
    refine ⟨fun hphase => ?_, h.alone, fun hphase => Or.inr ?_, h.lined⟩
    · simp [(h.idle hphase).1] at hlink
    · exact (h.stopping hphase).resolve_left (by simp [hlink])
  | part => exact ⟨fun hphase => ⟨rfl, (h.idle hphase).2⟩, h.alone, fun _ => Or.inl rfl, h.lined⟩
  | queue outbound hnone =>
    exact ⟨fun hphase => ⟨(h.idle hphase).1, (h.idle hphase).2.1, hnone hphase⟩, h.alone, h.stopping, h.lined⟩
  | note e => exact ⟨h.idle, h.alone, h.stopping, h.lined⟩
  | tell what =>
    rw [tell_eq]
    exact ⟨h.idle, h.alone, h.stopping, h.lined⟩
  | close => exact h.close

theorem Deeds.orderly (hdeeds : Deeds s t) (h : Orderly s) : Orderly t := by
  induction hdeeds with
  | refl => exact h
  | tail _ hdeed ih => exact hdeed.orderly ih

theorem Orderly.act (h : Orderly s) (a : Action) : Orderly (s.act a) := by
  cases act_does h.lined a with
  | starts hstarts hlined halone =>
    refine ⟨?_, ?_, ?_, hlined⟩
    · rw [hstarts.phase, hstarts.link, hstarts.stopping, hstarts.outbound]
      exact h.idle
    · intro hphase
      rw [hstarts.phase] at hphase
      exact halone hphase (h.alone hphase)
    · rw [hstarts.phase, hstarts.link, hstarts.stopping]
      exact h.stopping
  | connects buffer hwaiting hopen hconnect =>
    rw [hconnect]
    exact ⟨(by cases ·), fun _ => rfl, (by cases ·), lined_nil⟩
  | listens l => exact ⟨h.idle, h.alone, h.stopping, h.lined⟩
  | closes => exact h.close
  | drops =>
    change Orderly s.drop
    unfold drop
    split
    · next hphase => exact ⟨by simp [hphase], h.alone, by simp [hphase], h.lined⟩
    · exact h
  | deeds hdeeds => exact hdeeds.orderly h

theorem Orderly.run (h : Orderly s) (actions : List Action) : Orderly (s.run actions) := by
  induction actions generalizing s with
  | nil => exact h
  | cons a actions ih => exact ih (h.act a)

theorem orderly_run (address : String) (actions : List Action) : Orderly (State.run { address } actions) :=
  (orderly_new address).run actions

/-- A start can succeed only before the connection is there. -/
theorem Orderly.notStarted (h : Orderly s) (hwaiting : s.attempts ≠ []) (hopen : s.phase ≠ .closed) :
    s.phase = .notStarted := by
  cases hphase : s.phase with
  | notStarted => rfl
  | connected => exact absurd (h.alone hphase) hwaiting
  | closed => exact absurd hphase hopen

/-- The connection stands as long as it is not given up: its writer lives, and its reader is to go on. -/
def Kept (s : State) : Prop := s.phase = .connected → s.writing = true ∧ s.stopping = false

theorem Deed.kept (hdeed : Deed s t) (h : Kept s) : Kept t := by
  cases hdeed with
  | close => exact fun hphase => by simp at hphase
  | tell what =>
    rw [tell_eq]
    exact h
  | _ => exact h

theorem Deeds.kept (hdeeds : Deeds s t) (h : Kept s) : Kept t := by
  induction hdeeds with
  | refl => exact h
  | tail _ hdeed ih => exact Deed.kept hdeed ih

theorem Kept.act (h : Kept s) (ho : Orderly s) (ha : a ≠ .drop) : Kept (s.act a) := by
  cases act_does ho.lined a with
  | starts hstarts =>
    unfold Kept
    rw [hstarts.phase, hstarts.writing, hstarts.stopping]
    exact h
  | connects buffer hwaiting hopen hconnect =>
    rw [hconnect]
    exact fun _ => ⟨rfl, (ho.idle (ho.notStarted hwaiting hopen)).2.1⟩
  | listens l => exact h
  | closes => exact fun hphase => by simp [State.act] at hphase
  | drops => exact absurd rfl ha
  | deeds hdeeds => exact Deeds.kept hdeeds h

theorem Kept.run (h : Kept s) (ho : Orderly s) {actions : List Action} (hactions : .drop ∉ actions) :
    Kept (s.run actions) := by
  induction actions generalizing s with
  | nil => exact h
  | cons a actions ih =>
    rw [List.mem_cons, not_or] at hactions
    exact ih (h.act ho (Ne.symm hactions.1)) (ho.act a) hactions.2

/-! ### Farewells -/

/-- What neither a reader nor a writer touches. -/
structure Aside (s t : State) : Prop where
  listener : t.listener = s.listener
  attempts : t.attempts = s.attempts
  outcomes : t.outcomes = s.outcomes

theorem Deed.aside (hdeed : Deed s t) : Aside s t := by
  cases hdeed with
  | note e _ houtcome => exact ⟨rfl, rfl, by simp [houtcome]⟩
  | tell what => exact ⟨by rw [tell_eq], by rw [tell_eq], outcomes_tell s what⟩
  | close => exact ⟨listener_close s, attempts_close s, outcomes_close s⟩
  | _ => exact ⟨rfl, rfl, rfl⟩

theorem Deeds.aside (hdeeds : Deeds s t) : Aside s t := by
  induction hdeeds with
  | refl => exact ⟨rfl, rfl, rfl⟩
  | tail _ hdeed ih =>
    have h := hdeed.aside
    exact ⟨h.listener.trans ih.listener, h.attempts.trans ih.attempts, h.outcomes.trans ih.outcomes⟩

/-- With this action the connection ends. -/
def Closes (s : State) (a : Action) : Prop := s.phase = .connected ∧ (s.act a).phase = .closed

end State

end RemoteDebug.Socket
