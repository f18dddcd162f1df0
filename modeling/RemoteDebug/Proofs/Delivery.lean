import RemoteDebug.Proofs.Aftermath
import RemoteDebug.Proofs.Alignment
import RemoteDebug.Proofs.Startup
import RemoteDebug.Proofs.Stream

/-! A stream from the other side, as the listener gets it.

However the stream is cut, the octets up to the first line feed are the answer to the greeting, and all
behind them belong to the reader. What is told in the end does not depend on when the reader runs: at any
time what has been told and what would be told if it ran now are what lies behind the answer (`Delivers`). -/
namespace RemoteDebug.Socket
open Protocol Wire

/-! ### How far a connection has come -/

/-- What a start can fail with once the greeting is sent. -/
def StartFault (e : TransportError) : Prop := (∃ fault, e = .handshake fault) ∨ (∃ cause, e = .stream cause) ∨ ∃ waited, e = .timeout waited

theorem startFault_of_greetingFault {line : Octets} {e : TransportError} (h : State.greetingFault? line = some e) :
    StartFault e := by
  unfold State.greetingFault? at h
  split at h
  · exact Or.inr (Or.inl ⟨_, (Option.some.inj h).symm⟩)
  · split at h
    · cases h
    · exact Or.inl ⟨_, (Option.some.inj h).symm⟩

/-- The greeting is answered in time, and so much lies behind the answer. -/
structure Greeted (done : List Action) (rest : Octets) : Prop where
  answered : Answered done
  all : arrived done = Text.Utf8.encode greeting ++ rest

theorem Greeted.append {done : List Action} {rest : Octets} (h : Greeted done rest) (a : Action) :
    Greeted (done ++ [a]) (rest ++ if finished done then [] else a.octets) :=
  ⟨h.answered.append [a], by rw [arrived_concat, h.all, List.append_assoc]⟩

namespace State

variable {s t u : State} {id : Nat} {l : Listener} {done : List Action} {a : Action}

/-- The first start to end from here on. -/
def Ends (s t : State) (id : Nat) (result : Except TransportError Unit) : Prop :=
  ∃ more, t.outcomes = s.outcomes ++ (id, result) :: more

theorem Ends.act {result : Except TransportError Unit} (h : Ends s t id result) (ho : Orderly t) (a : Action) :
    Ends s (t.act a) id result := by
  obtain ⟨more, hmore⟩ := h
  obtain ⟨new, hnew⟩ := outcomes_grow ho a
  exact ⟨more ++ new, by rw [hnew, hmore]; simp⟩

section
variable (s : State) (id : Nat) (l : Listener) (done : List Action) (t : State)

/-- The answer to the start is not there yet. -/
structure Waits (others : List Attempt) : Prop where
  phase : t.phase = .notStarted
  attempts : t.attempts = ⟨id, .greeted (arrived done)⟩ :: others
  listener : t.listener = some l
  outcomes : t.outcomes = s.outcomes
  heard : t.heard = s.heard
  line : 0x0A ∉ arrived done
  open' : finished done = false
  time : done.any (·.limits) = false

/-- The start has failed, and whatever comes is no answer to it. -/
structure Fails (e : TransportError) : Prop where
  phase : t.phase = .notStarted
  unanswered : t.Unanswered
  ends : Ends s t id (.error e)
  fault : StartFault e
  heard : t.heard = s.heard
  decided : Decided done
  never : ∀ later, ¬ Answered (done ++ later)

/-- The start has succeeded. If the reader ran now, then all would be told that lies behind the answer. -/
structure Delivers (rest : Octets) (link : Link) : Prop where
  greeted : Greeted done rest
  phase : t.phase = .connected
  serving : Serving t l link
  ends : Ends s t id (.ok ())
  ended : link.ended = finished done
  heard : ∀ e more, Extends link.ended e more →
    t.heard ++ l.receives e (link.buffer ++ more) = s.heard ++ l.receives e (rest ++ more)
  endless : ∀ e more, Extends link.ended e more →
    (available e (rest ++ more)).1.all (·.goesOn) = (available e (link.buffer ++ more)).1.all (·.goesOn)

/-- The start has succeeded, and all that lies behind the answer is told. -/
structure Delivered (rest : Octets) : Prop where
  greeted : Greeted done rest
  silent : Silent t
  ends : Ends s t id (.ok ())
  heard : ∀ e more, Extends (finished done) e more → t.heard = s.heard ++ l.receives e (rest ++ more)
  endless : ∀ e more, Extends (finished done) e more → (available e (rest ++ more)).1.all (·.goesOn) = false

/-- How far a start has come that waited for the answer in `s`. -/
inductive Stage : Prop
  | waiting (others : List Attempt) (h : Waits s id l done t others)
  | failed (e : TransportError) (h : Fails s id done t e)
  | served (rest : Octets) (link : Link) (h : Delivers s id l done t rest link)
  | delivered (rest : Octets) (h : Delivered s id l done t rest)

end

variable {others : List Attempt} {e : TransportError} {rest : Octets} {link : Link}

/-! ### What does not touch the stream -/

/-- An action without octets, end or limit leaves the stream as it is. -/
theorem Stage.pass (h : Stage s id l done t) (hoctets : a.octets = []) (hends : a.ends = false)
    (hlimits : a.limits = false) : Stage s id l (done ++ [a]) t := by
  have harrived : arrived (done ++ [a]) = arrived done := by
    rw [arrived_concat, hoctets]
    cases finished done <;> simp
  have hfinished : finished (done ++ [a]) = finished done := by simp [finished, hends]
  have hgreeted {rest : Octets} (h : Greeted done rest) : Greeted (done ++ [a]) rest := by
    have := h.append a
    rw [hoctets] at this
    cases hf : finished done <;> simpa [hf] using this
  cases h with
  | waiting others h =>
    exact .waiting others { h with
      attempts := by rw [harrived, h.attempts]
      line := by rw [harrived]; exact h.line
      open' := by rw [hfinished]; exact h.open'
      time := by simp [h.time, hlimits] }
  | failed e h =>
    exact .failed e { h with
      decided := h.decided.append [a]
      never := fun later => by
        rw [List.append_assoc]
        exact h.never _ }
  | served rest link h =>
    exact .served rest link { h with greeted := hgreeted h.greeted, ended := h.ended.trans hfinished.symm }
  | delivered rest h =>
    exact .delivered rest { h with
      greeted := hgreeted h.greeted
      heard := by rw [hfinished]; exact h.heard
      endless := by rw [hfinished]; exact h.endless }

/-- Before the connection stands there is nothing to read, to write or to send. -/
theorem idle_of_notStarted (h : Orderly t) (hphase : t.phase = .notStarted) :
    t.turn = t ∧ t.read = t ∧ t.write = t ∧ ∀ m, (t.send m).1 = t := by
  obtain ⟨hlink, -, houtbound⟩ := h.idle hphase
  have hturn : t.turn = t := by
    unfold turn
    rw [hlink]
  refine ⟨hturn, ?_, ?_, fun m => ?_⟩
  · have hidle : t.isReading = false := by simp [isReading, hlink]
    simp [read, turns, hturn, hidle]
  · simp [write, houtbound]
  · unfold send
    rw [hphase]

/-! ### A start that has failed -/

theorem Unanswered.start (h : t.Unanswered) (ho : Orderly t) (hphase : t.phase = .notStarted) (id : Nat) :
    (t.start id).Unanswered := by
  by_cases hnone : t.attempts = []
  · rw [start_of_unsettled hnone (settled_of_notStarted hphase)]
    intro id received rest hattempts
    simp at hattempts
  · obtain ⟨b, others, hattempts⟩ := List.exists_cons_of_ne_nil hnone
    rw [start_of_waiting hnone ho.lined]
    intro id received rest hgreeted
    simp only [hattempts, List.cons_append, List.cons.injEq] at hgreeted
    exact h id received others (by rw [hattempts, hgreeted.1])

theorem unanswered_advance (h : t.attempts = advance others) : t.Unanswered := by
  intro id received rest hattempts
  cases others <;> simp [h, advance] at hattempts

theorem Unanswered.timedOut (h : t.Unanswered) (ho : Orderly t) (hphase : t.phase = .notStarted) :
    t.timedOut.Unanswered := by
  cases hattempts : t.attempts with
  | nil =>
    have hsame : t.timedOut = t := by
      unfold State.timedOut
      rw [hattempts]
    rwa [hsame]
  | cons b rest => exact unanswered_advance (timedOut_of_notStarted hphase ho.lined hattempts).2

/-- Where no start waits for an answer and no reader is there, nobody takes what the other side sends. -/
theorem unheard (h : t.Unanswered) (hlink : t.link = none) :
    (∀ octets, t.arrive octets = t) ∧ t.finish = t := by
  constructor
  · intro octets
    unfold arrive
    split
    · next heq => exact absurd heq (h _ _ _)
    · next heq _ => simp [hlink] at heq
    · rfl
  · unfold finish
    split
    · next heq => exact absurd heq (h _ _ _)
    · next heq _ => simp [hlink] at heq
    · rfl

theorem Fails.act (h : Fails s id done t e) (ho : Orderly t) (ha : a.undisturbing = true) :
    Fails s id (done ++ [a]) (t.act a) e := by
  obtain ⟨harrive, hfinish⟩ := unheard h.unanswered (ho.idle h.phase).1
  obtain ⟨hturn, hread, hwrite, hsend⟩ := idle_of_notStarted ho h.phase
  have hsame {a : Action} (hact : t.act a = t) :
      (t.act a).phase = .notStarted ∧ (t.act a).Unanswered ∧ (t.act a).heard = s.heard := by
    rw [hact]
    exact ⟨h.phase, h.unanswered, h.heard⟩
  have hkeeps : (t.act a).phase = .notStarted ∧ (t.act a).Unanswered ∧ (t.act a).heard = s.heard := by
    cases a with
    | start id =>
      have hstarts := starts_start t id
      exact ⟨hstarts.phase.trans h.phase, h.unanswered.start ho h.phase id, hstarts.heard.trans h.heard⟩
    | timedOut =>
      have hstarts := starts_timedOut t
      exact ⟨hstarts.phase.trans h.phase, h.unanswered.timedOut ho h.phase, hstarts.heard.trans h.heard⟩
    | arrive octets => exact hsame (harrive octets)
    | finish => exact hsame hfinish
    | turn => exact hsame hturn
    | read => exact hsame hread
    | write => exact hsame hwrite
    | send m => exact hsame (hsend m)
    | _ => cases ha
  refine ⟨hkeeps.1, hkeeps.2.1, h.ends.act ho a, h.fault, hkeeps.2.2, h.decided.append [a], fun later => ?_⟩
  rw [List.append_assoc]
  exact h.never _

/-! ### A start that waits for its answer -/

/-- A line that is not the greeting keeps the greeting away for good. -/
theorem not_prefix_of_line {input line rest : Octets} (hline : line? input = some (line, rest))
    (hfault : greetingFault? line = some e) (more : Octets) : ¬ Text.Utf8.encode greeting <+: input ++ more := by
  rintro ⟨behind, hbehind⟩
  have h := line?_append hline more
  rw [← hbehind, line?_greeting, Option.some.injEq, Prod.mk.injEq] at h
  have hnone := greetingFault?_eq_none_iff.mpr h.1.symm
  rw [hfault] at hnone
  cases hnone

theorem not_prefix_of_notMem {input : Octets} (h : 0x0A ∉ input) : ¬ Text.Utf8.encode greeting <+: input := by
  rintro ⟨behind, rfl⟩
  exact h (List.mem_append_left _ (by decide))

/-- The start gives up, and the next one has not yet sent its greeting. -/
theorem Waits.ends_giveUp (h : Waits s id l done t others) (ho : Orderly t) (e : TransportError) :
    (t.giveUp e).Unanswered ∧ Ends s (t.giveUp e) id (.error e) := by
  have hgiveUp := conclude_of_unsettled (s := t.record .hungUp) h.attempts (ho.lined.queued h.attempts)
    (settled_of_notStarted h.phase) (.error e)
  refine ⟨unanswered_advance (congrArg State.attempts hgiveUp), [], ?_⟩
  rw [← h.outcomes, State.giveUp, hgiveUp]
  simp [State.outcomes, record]
  rfl

theorem Waits.giveUp (h : Waits s id l done t others) (ho : Orderly t) (hfault : StartFault e)
    (hact : t.act a = t.giveUp e) (hdecided : Decided (done ++ [a])) (hnever : ∀ later, ¬ Answered (done ++ a :: later)) :
    Stage s id l (done ++ [a]) (t.act a) := by
  obtain ⟨hunanswered, hends⟩ := h.ends_giveUp ho e
  have hstarts := starts_giveUp t e
  rw [hact]
  refine .failed e ⟨hstarts.phase.trans h.phase, hunanswered, hends, hfault, hstarts.heard.trans h.heard,
    hdecided, fun later => ?_⟩
  rw [List.append_assoc]
  exact hnever later

/-- Time runs out before the answer is there. -/
theorem Waits.timedOut (h : Waits s id l done t others) (ho : Orderly t) :
    Stage s id l (done ++ [.timedOut]) (t.act .timedOut) := by
  have hact : t.act .timedOut = t.giveUp (.timeout (.connection t.address)) := by
    simp only [act, State.timedOut, h.attempts]
  refine h.giveUp ho (Or.inr (Or.inr ⟨_, rfl⟩)) hact (Or.inr (Or.inr (by simp [Action.limits]))) fun later => ?_
  rw [Answered, arrived_timely_of_open h.time h.open', show timely (.timedOut :: later) = [] from rfl]
  exact not_prefix_of_notMem (by simpa [arrived] using h.line)

/-- The stream ends before the answer is there. -/
theorem Waits.finish (h : Waits s id l done t others) (ho : Orderly t) :
    Stage s id l (done ++ [.finish]) (t.act .finish) := by
  obtain ⟨e, he⟩ : ∃ e, greetingFault? (arrived done) = some e := by
    cases hfault : greetingFault? (arrived done) with
    | some e => exact ⟨e, rfl⟩
    | none =>
      have hgreeting := greetingFault?_eq_none_iff.mp hfault
      exact absurd (hgreeting ▸ List.prefix_rfl) (not_prefix_of_notMem h.line)
  have hact : t.act .finish = t.giveUp e := by
    simp only [act, State.finish, h.attempts]
    exact answered_of_fault he t []
  have hfinished : finished (done ++ [.finish]) = true := by
    rw [finished_append]
    exact Bool.or_true _
  refine h.giveUp ho (startFault_of_greetingFault he) hact (Or.inr (Or.inl hfinished)) fun later => ?_
  rw [Answered, arrived_timely_of_open h.time h.open', show timely (.finish :: later) = .finish :: timely later from rfl]
  exact not_prefix_of_notMem (by simpa [arrived, Action.ends] using h.line)

/-- More of the answer is there, or all of it: then the octets behind it are the first to be read. -/
theorem Waits.arrive (h : Waits s id l done t others) (ho : Orderly t) (octets : Octets) :
    Stage s id l (done ++ [.arrive octets]) (t.act (.arrive octets)) := by
  have harrived : arrived (done ++ [.arrive octets]) = arrived done ++ octets := by
    rw [arrived_concat, h.open']
    rfl
  have hopen : finished (done ++ [.arrive octets]) = false := by
    rw [finished_append, h.open']
    rfl
  have htime : (done ++ [Action.arrive octets]).any (·.limits) = false := by
    rw [List.any_append, h.time]
    rfl
  cases hsplit : line? (arrived done ++ octets) with
  | none =>
    have hact : t.act (.arrive octets) = { t with attempts := ⟨id, .greeted (arrived done ++ octets)⟩ :: others } := by
      simp only [act, State.arrive, h.attempts, hsplit]
    rw [hact]
    refine .waiting others { h with attempts := by rw [harrived], line := ?_, open' := hopen, time := htime }
    rw [harrived]
    exact line?_eq_none_iff.mp hsplit
  | some parts =>
    obtain ⟨line, behind⟩ := parts
    have hact : t.act (.arrive octets) = t.answered line behind := by
      simp only [act, State.arrive, h.attempts, hsplit]
    cases hfault : greetingFault? line with
    | some e =>
      have hdecided : Decided (done ++ [.arrive octets]) := by
        refine Or.inl ?_
        rw [timely_eq htime, harrived]
        exact Decidable.not_not.mp fun hnot => by simp [line?_eq_none_iff.mpr hnot] at hsplit
      refine h.giveUp ho (startFault_of_greetingFault hfault) (hact.trans (answered_of_fault hfault t behind))
        hdecided fun later => ?_
      rw [Answered, arrived_timely_of_open h.time h.open',
        show timely (.arrive octets :: later) = .arrive octets :: timely later from rfl,
        show arrived (.arrive octets :: timely later) = octets ++ arrived (timely later) from rfl, ← List.append_assoc]
      exact not_prefix_of_line hsplit hfault _
    | none =>
      have hgreeting : arrived done ++ octets = Text.Utf8.encode greeting ++ behind := by
        obtain ⟨inner, -, -, hinput⟩ := line?_eq_some_iff.mp hsplit
        rw [hinput, greetingFault?_eq_none_iff.mp hfault]
      have hgreeted : Greeted (done ++ [.arrive octets]) behind := by
        refine ⟨?_, by rw [harrived, hgreeting]⟩
        rw [Answered, timely_eq htime, harrived, hgreeting]
        exact List.prefix_append ..
      rw [hact, answered_of_open hfault (by simp [h.phase]) h.attempts (ho.lined.queued h.attempts)]
      refine .served behind { buffer := behind } ⟨hgreeted, rfl, ⟨rfl, h.listener, Or.inl ⟨rfl, (ho.idle h.phase).2.1⟩⟩,
        ⟨_, by rw [outcomes_connect, h.outcomes, h.attempts]; rfl⟩, hopen.symm, fun e more _ => ?_, fun _ _ _ => rfl⟩
      rw [← h.heard]
      simp [State.heard, connect]

theorem Waits.act (h : Waits s id l done t others) (ho : Orderly t) (ha : a.undisturbing = true) :
    Stage s id l (done ++ [a]) (t.act a) := by
  have hsame {a : Action} (hact : t.act a = t) (hoctets : a.octets = []) (hends : a.ends = false)
      (hlimits : a.limits = false) : Stage s id l (done ++ [a]) (t.act a) := by
    rw [hact]
    exact Stage.pass (.waiting others h) hoctets hends hlimits
  obtain ⟨hturn, hread, hwrite, hsend⟩ := idle_of_notStarted ho h.phase
  cases a with
  | turn => exact hsame hturn rfl rfl rfl
  | read => exact hsame hread rfl rfl rfl
  | write => exact hsame hwrite rfl rfl rfl
  | send m => exact hsame (hsend m) rfl rfl rfl
  | start id' =>
    have hstart : t.act (.start id') = { t with attempts := t.attempts ++ [⟨id', .queued⟩] } :=
      start_of_waiting (by simp [h.attempts]) ho.lined id'
    rw [hstart]
    exact Stage.pass (.waiting (others ++ [⟨id', .queued⟩]) { h with attempts := by simp [h.attempts] }) rfl rfl rfl
  | timedOut => exact h.timedOut ho
  | finish => exact h.finish ho
  | arrive octets => exact h.arrive ho octets
  | _ => cases ha

/-! ### A connection that stands -/

theorem Delivers.stopping (h : Delivers s id l done t rest link) : t.stopping = false := by
  rcases h.serving.phase with ⟨-, hstopping⟩ | ⟨hphase, -⟩
  · exact hstopping
  · simp [h.phase] at hphase

/-- A turn of the reader tells what comes next, and leaves the rest to be told. -/
theorem Delivers.turn (h : Delivers s id l done t rest link) (ho : Orderly t) (hl : l.Quiet) :
    Stage s id l done t.turn := by
  have hends : Ends s t.turn id (.ok ()) := h.ends.act ho .turn
  have hopen : (t.phase == .closed) = false := by rw [h.phase]; rfl
  cases hnext : next link.ended link.buffer with
  | none =>
    obtain ⟨hserved, -⟩ := turn_of_none h.serving hnext
    have havailable := available_of_none hnext
    obtain ⟨hphase, hstopping, hlink⟩ := hserved.goes h.phase (by simp [havailable])
    rw [havailable] at hlink
    have hsame : t.turn.heard = t.heard := by
      rw [hserved.heard, havailable]
      exact List.append_nil _
    refine .served rest { link with reading := false } { h with
      phase := hphase, serving := ⟨hlink, hserved.listener, Or.inl ⟨hphase, hstopping⟩⟩, ends := hends
      heard := ?_ }
    rw [hsame]
    exact h.heard
  | some reading =>
    obtain ⟨r, buffer⟩ := reading
    cases hr : r.goesOn with
    | true =>
      obtain ⟨hturn, -⟩ := h.serving.more hnext hr
      obtain ⟨hserving, -, hphase, htold⟩ := h.serving.take r { link with buffer, reading := true } rfl
      rw [hl.closesAt, hr] at hphase
      rw [hopen] at htold
      rw [← hturn] at hserving hphase htold
      refine .served rest _ { h with
        phase := hphase.trans h.phase, serving := hserving, ends := hends
        heard := fun e more hmore => ?_, endless := fun e more hmore => ?_ }
      · rw [htold, List.append_assoc, ← hl.receives_cons (next_extends hnext hmore) hr]
        exact h.heard e more hmore
      · rw [h.endless e more hmore, available_cons (next_extends hnext hmore) hr]
        simp [hr]
    | false =>
      obtain ⟨hserved, -⟩ := h.serving.last hnext hr
      have hlast : l.closesAt r = true := by simp [hl.closesAt, hr]
      obtain ⟨hphase, hlink⟩ := hserved.closes (Or.inr ⟨r, by simp [available_last hnext hr], hlast⟩)
      refine .delivered rest ⟨h.greeted, ⟨hphase, fun ⟨link, hsome, _⟩ => by simp [hlink] at hsome⟩, hends,
        fun e more hmore => ?_, fun e more hmore => ?_⟩
      all_goals rw [← h.ended] at hmore
      · -- the last thing that is read is the same whatever may still come behind it
        calc t.turn.heard = t.heard ++ l.receives link.ended link.buffer := by rw [hserved.heard, hopen]; rfl
          _ = t.heard ++ l.receives e (link.buffer ++ more) := by
            rw [l.receives_of_last hnext hr, l.receives_of_last (next_extends hnext hmore) hr]
          _ = s.heard ++ l.receives e (rest ++ more) := h.heard e more hmore
      · rw [h.endless e more hmore, available_last (next_extends hnext hmore) hr]
        simp [hr]

/-- What arrives behind the answer is told behind what is there already. -/
theorem Delivers.arrive (h : Delivers s id l done t rest link) (ho : Orderly t) (octets : Octets) :
    Stage s id l (done ++ [.arrive octets]) (t.act (.arrive octets)) := by
  have hends := h.ends.act ho (.arrive octets)
  have hgreeted := h.greeted.append (.arrive octets)
  have hfinished : finished (done ++ [.arrive octets]) = finished done := by
    rw [finished_append]
    exact Bool.or_false _
  have hact : t.act (.arrive octets) =
      if link.ended then t else { t with link := some { link with buffer := link.buffer ++ octets } } := by
    simp only [act, State.arrive, ho.alone h.phase, h.serving.at']
  cases hended : link.ended with
  | true =>
    rw [← h.ended, hended, if_pos rfl, List.append_nil] at hgreeted
    rw [hact, hended, if_pos rfl] at hends ⊢
    exact .served rest link { h with greeted := hgreeted, ended := h.ended.trans hfinished.symm }
  | false =>
    rw [← h.ended, hended, if_neg (by simp)] at hgreeted
    rw [hact, hended, if_neg (by simp)] at hends ⊢
    refine .served _ { buffer := link.buffer ++ octets, ended := false, reading := link.reading } ⟨hgreeted, h.phase,
      ⟨rfl, h.serving.listener, Or.inl ⟨h.phase, h.stopping⟩⟩, hends, ?_, fun e more _ => ?_, fun e more _ => ?_⟩
    · rw [hfinished, ← h.ended, hended]
    · have := h.heard e (octets ++ more) fun h => by simp [hended] at h
      rwa [← List.append_assoc, ← List.append_assoc] at this
    · have := h.endless e (octets ++ more) fun h => by simp [hended] at h
      rwa [← List.append_assoc, ← List.append_assoc] at this

/-- Once the stream has ended nothing comes behind what is there. -/
theorem Delivers.finish (h : Delivers s id l done t rest link) (ho : Orderly t) :
    Stage s id l (done ++ [.finish]) (t.act .finish) := by
  have hends := h.ends.act ho .finish
  have hgreeted : Greeted (done ++ [.finish]) rest := by
    have := h.greeted.append .finish
    cases hf : finished done <;> simpa [hf, Action.octets] using this
  have hact : t.act .finish = { t with link := some { link with ended := true } } := by
    simp only [act, State.finish, ho.alone h.phase, h.serving.at']
  rw [hact] at hends ⊢
  refine .served rest { link with ended := true } ⟨hgreeted, h.phase,
    ⟨rfl, h.serving.listener, Or.inl ⟨h.phase, h.stopping⟩⟩, hends, ?_, fun e more hmore => ?_, fun e more hmore => ?_⟩
  · simp [finished, Action.ends]
  all_goals
    obtain ⟨rfl, rfl⟩ := hmore rfl
  · exact h.heard true [] fun _ => ⟨rfl, rfl⟩
  · exact h.endless true [] fun _ => ⟨rfl, rfl⟩

theorem Stage.turn (h : Stage s id l done t) (ho : Orderly t) (hl : l.Quiet) : Stage s id l done t.turn := by
  cases h with
  | waiting others h =>
    rw [(idle_of_notStarted ho h.phase).1]
    exact .waiting others h
  | failed e h =>
    rw [(idle_of_notStarted ho h.phase).1]
    exact .failed e h
  | served rest link h => exact h.turn ho hl
  | delivered rest h =>
    obtain ⟨hsilent, hsame⟩ := h.silent.act ho .turn
    exact .delivered rest { h with
      silent := hsilent, ends := h.ends.act ho .turn, heard := fun e more hmore => hsame.trans (h.heard e more hmore) }

theorem Stage.turns (h : Stage s id l done t) (ho : Orderly t) (hl : l.Quiet) (n : Nat) :
    Stage s id l done (turns n t) := by
  induction n generalizing t with
  | zero => exact h
  | succ n ih =>
    rw [State.turns]
    split
    · exact ih (h.turn ho hl) (ho.act .turn)
    · exact h.turn ho hl

/-- What is done beside the reader leaves it where it is. -/
structure Alike (t u : State) : Prop where
  link : u.link = t.link
  listener : u.listener = t.listener
  phase : u.phase = t.phase
  stopping : u.stopping = t.stopping
  heard : u.heard = t.heard

theorem alike_record (t : State) {e : Entry} (h : e.heard? = none) : Alike t (t.record e) :=
  ⟨rfl, rfl, rfl, rfl, by simp [h]⟩

theorem alike_write (t : State) : Alike t t.write := by
  unfold write
  split
  · exact ⟨rfl, rfl, rfl, rfl, rfl⟩
  · exact ⟨rfl, rfl, rfl, rfl, (alike_record { t with outbound := [] } rfl).heard⟩

theorem alike_send (t : State) (m : Message) : Alike t (t.send m).1 := by
  unfold send
  split
  · split <;> exact ⟨rfl, rfl, rfl, rfl, rfl⟩
  · exact ⟨rfl, rfl, rfl, rfl, rfl⟩
  · exact ⟨rfl, rfl, rfl, rfl, rfl⟩

theorem Delivers.beside (h : Delivers s id l done t rest link) (ho : Orderly t) (hoctets : a.octets = [])
    (hends : a.ends = false) (hact : Alike t (t.act a)) : Stage s id l (done ++ [a]) (t.act a) := by
  have hgreeted := h.greeted.append a
  rw [hoctets, ite_self, List.append_nil] at hgreeted
  refine .served rest link ⟨hgreeted, hact.phase.trans h.phase, ?_, h.ends.act ho a, ?_, ?_, h.endless⟩
  · exact ⟨hact.link.trans h.serving.at', hact.listener.trans h.serving.listener,
      Or.inl ⟨hact.phase.trans h.phase, hact.stopping.trans h.stopping⟩⟩
  · simp [h.ended, finished, hends]
  · rw [hact.heard]
    exact h.heard

theorem Delivers.act (h : Delivers s id l done t rest link) (ho : Orderly t) (hl : l.Quiet)
    (ha : a.undisturbing = true) : Stage s id l (done ++ [a]) (t.act a) := by
  have hnone := ho.alone h.phase
  cases a with
  | turn => exact Stage.pass (h.turn ho hl) rfl rfl rfl
  | read => exact Stage.pass (Stage.turns (.served rest link h) ho hl _) rfl rfl rfl
  | arrive octets => exact h.arrive ho octets
  | finish => exact h.finish ho
  | start id' =>
    have hact : t.act (.start id') = t.record (.started id' (.ok ())) :=
      start_of_settled hnone (settled_of_connected h.phase) id'
    exact h.beside ho rfl rfl (hact ▸ alike_record t rfl)
  | timedOut =>
    have hact : t.act .timedOut = t := by simp only [act, timedOut, hnone]
    exact h.beside ho rfl rfl (hact.symm ▸ ⟨rfl, rfl, rfl, rfl, rfl⟩)
  | write => exact h.beside ho rfl rfl (alike_write t)
  | send m => exact h.beside ho rfl rfl (alike_send t m)
  | _ => cases ha

/-- When all is told, nothing that happens changes it. -/
theorem Delivered.act (h : Delivered s id l done t rest) (ho : Orderly t) (a : Action) :
    Stage s id l (done ++ [a]) (t.act a) := by
  obtain ⟨hsilent, hsame⟩ := h.silent.act ho a
  have hextends {e : Bool} {more : Octets} (hmore : Extends (finished (done ++ [a])) e more) :
      Extends (finished done) e ((if finished done then [] else a.octets) ++ more) := by
    intro hfinished
    obtain ⟨rfl, rfl⟩ := hmore (by simp [finished_append, hfinished])
    simp [hfinished]
  refine .delivered _ ⟨h.greeted.append a, hsilent, h.ends.act ho a, fun e more hmore => ?_, fun e more hmore => ?_⟩
  · rw [hsame, List.append_assoc]
    exact h.heard e _ (hextends hmore)
  · rw [List.append_assoc]
    exact h.endless e _ (hextends hmore)

/-! ### Runs -/

theorem Stage.act (h : Stage s id l done t) (ho : Orderly t) (hl : l.Quiet) (ha : a.undisturbing = true) :
    Stage s id l (done ++ [a]) (t.act a) := by
  cases h with
  | waiting others h => exact h.act ho ha
  | failed e h => exact .failed e (h.act ho ha)
  | delivered rest h => exact h.act ho a
  | served rest link h => exact h.act ho hl ha

theorem Stage.run (h : Stage s id l done t) (ho : Orderly t) (hl : l.Quiet) {actions : List Action}
    (ha : ∀ a ∈ actions, a.undisturbing = true) : Stage s id l (done ++ actions) (t.run actions) := by
  induction actions generalizing t done with
  | nil => rwa [List.append_nil]
  | cons a actions ih =>
    obtain ⟨hfirst, hrest⟩ := List.forall_mem_cons.mp ha
    have := ih (h.act ho hl hfirst) (ho.act a) hrest
    rwa [List.append_assoc] at this

/-! ### The whole stream -/

theorem Delivers.read (h : Delivers s id l done t rest link) (ho : Orderly t) (hl : l.Quiet) :
    t.read.heard = s.heard ++ (delivered (available (finished done) rest).1).map (l.name, ·) ∧
      ((available (finished done) rest).1.all (·.goesOn) = false → Silent t.read) ∧
      ((available (finished done) rest).1.all (·.goesOn) = true → t.read.phase = .connected ∧
        ∃ link, Serving t.read l link ∧ next link.ended link.buffer = none) := by
  obtain ⟨hserved, hidle⟩ := read_serving h.serving
  have hheard := h.heard link.ended [] (extends_nil _)
  have hendless := h.endless link.ended [] (extends_nil _)
  rw [List.append_nil, List.append_nil, h.ended] at hheard hendless
  refine ⟨?_, fun hend => ?_, fun hgoes => ?_⟩
  · rw [hserved.heard, ← hl.hears_available, h.phase, h.ended]
    exact hheard
  · rw [hend, ← h.ended] at hendless
    obtain ⟨r, hr, hlast⟩ := List.all_eq_false.mp hendless.symm
    exact (ho.act .read).silent (hserved.closes (Or.inr ⟨r, hr, by simpa [hl.closesAt] using hlast⟩)).1 hidle
  · rw [hgoes, ← h.ended] at hendless
    obtain ⟨hphase, hstopping, hlink⟩ := hserved.goes h.phase fun r hr => by
      simpa [hl.closesAt] using List.all_eq_true.mp hendless.symm r hr
    exact ⟨hphase, _, ⟨hlink, hserved.listener, Or.inl ⟨hphase, hstopping⟩⟩, next_left hendless.symm⟩

/-- The stream fails while its reader waits: that is an end as well. -/
theorem heard_interrupted (ho : Orderly t) (hphase : t.phase = .connected) (h : Serving t l link)
    (hnext : next link.ended link.buffer = none) (cause : StreamFailure) :
    (t.interrupted cause).heard = t.heard ++ [(l.name, .endOfStream), (l.name, .closed)] := by
  have hact : t.interrupted cause = (t.process (.failed (interruption link.buffer cause))).release := by
    unfold interrupted
    simp only [ho.alone hphase, h.at', if_neg h.works, hnext]
    rfl
  obtain ⟨u, hu⟩ : ∃ u, u = { t with journal := t.journal ++ l.entries (.failed (interruption link.buffer cause)) } :=
    ⟨_, rfl⟩
  have hprocess : t.process (.failed (interruption link.buffer cause)) = u.close := by
    rw [process_eq h.listener, if_pos (by simp [Listener.closesAt, Reading.goesOn]), hu]
  have hclose := close_told (s := u) (l := l) (by rw [hu]; exact h.listener) (by rw [hu]; exact hphase)
  rw [hact, hprocess, hclose, hu]
  simp [release, record, heard, Listener.heard_entries, told?, Entry.heard?]

/-- The stream fails before the answer is there. -/
theorem Waits.interrupted (h : Waits s id l done t others) (ho : Orderly t) (cause : StreamFailure) :
    Ends s (t.interrupted cause) id (.error (.stream cause)) ∧ (t.interrupted cause).heard = s.heard := by
  have hact : t.interrupted cause = t.giveUp (.stream cause) := by
    simp only [State.interrupted, h.attempts]
  rw [hact]
  exact ⟨(h.ends_giveUp ho _).2, (starts_giveUp t _).heard.trans h.heard⟩

/-- However a stream is cut and whenever the reader runs: if the first line is the greeting, the listener is
told of the messages behind it and then of the end, and if it is not, the start fails and the listener is
told of nothing. -/
theorem stream_delivered (address : String) {before actions : List Action}
    (hphase : (State.run { address } before).phase = .notStarted)
    (hattempts : (State.run { address } before).attempts = ⟨id, .greeted []⟩ :: others)
    (hlistener : (State.run { address } before).listener = some l) (hl : l.Quiet)
    (hactions : ∀ a ∈ actions, a.undisturbing = true) :
    let s := State.run { address } before
    let t := s.run (actions ++ [.read])
    (∀ rest, Answered actions → arrived actions = Text.Utf8.encode greeting ++ rest →
      let rs := (available (finished actions) rest).1
      Ends s t id (.ok ()) ∧ t.heard = s.heard ++ (delivered rs).map (l.name, ·) ∧
      -- with the end of the stream that is all of it, and before that it is how all of it begins
      (finished actions = true → rs = (readAll rest).1 ∧ rs.all (·.goesOn) = false) ∧
      (finished actions = false → ∀ more, rs <+: (readAll (rest ++ more)).1) ∧
      -- behind the end nothing is told, and a failure of the stream is an end
      (rs.all (·.goesOn) = false → ∀ more, (t.run more).heard = t.heard) ∧
      (rs.all (·.goesOn) = true → ∀ cause, (t.act (.interrupted cause)).heard =
        t.heard ++ [(l.name, .endOfStream), (l.name, .closed)])) ∧
    (¬ Answered actions → t.heard = s.heard ∧
      (Decided actions → ∃ e, Ends s t id (.error e) ∧ StartFault e) ∧
      (¬ Decided actions → ∀ cause, Ends s (t.act (.interrupted cause)) id (.error (.stream cause)) ∧
        (t.act (.interrupted cause)).heard = s.heard)) := by
  intro s t
  have ho : Orderly s := orderly_run address before
  have hstage : Stage s id l [] s :=
    .waiting others ⟨hphase, hattempts, hlistener, rfl, rfl, by simp [arrived], rfl, rfl⟩
  -- the invariant at the end of the run decides all four parts, and the last read brings it up to date
  have hrun := hstage.run ho hl hactions
  rw [List.nil_append] at hrun
  have ho' := ho.run actions
  have ht : t = (s.run actions).read := run_append s actions [.read]
  have hwhole (rest : Octets) (hfinished : finished actions = true) :
      (available (finished actions) rest).1 = (readAll rest).1 ∧
        (available (finished actions) rest).1.all (·.goesOn) = false := by
    rw [hfinished]
    exact ⟨rfl, readAll_ends rest⟩
  have hbegin (rest : Octets) (hfinished : finished actions = false) (more : Octets) :
      (available (finished actions) rest).1 <+: (readAll (rest ++ more)).1 := by
    rw [hfinished]
    exact available_prefix rest true more
  generalize s.run actions = u at hrun ho' ht
  rw [ht]
  cases hrun with
  | waiting others h =>
    have hnot : ¬ Answered actions := by
      unfold Answered
      rw [timely_eq h.time]
      exact not_prefix_of_notMem h.line
    rw [(idle_of_notStarted ho' h.phase).2.1]
    refine ⟨fun rest hanswered => absurd hanswered hnot, fun _ => ⟨h.heard, fun hdecided => ?_, fun _ cause => ?_⟩⟩
    · unfold Decided at hdecided
      rw [timely_eq h.time, h.open', h.time] at hdecided
      simp [h.line] at hdecided
    · exact h.interrupted ho' cause
  | failed e h =>
    rw [(idle_of_notStarted ho' h.phase).2.1]
    have hnot : ¬ Answered actions := by
      have := h.never []
      rwa [List.append_nil] at this
    exact ⟨fun rest hanswered => absurd hanswered hnot,
      fun _ => ⟨h.heard, fun _ => ⟨e, h.ends, h.fault⟩, fun hundecided => absurd h.decided hundecided⟩⟩
  | served rest link h =>
    obtain ⟨hheard, hsilent, hopen⟩ := h.read ho' hl
    refine ⟨fun rest' _ hrest' => ?_, fun hnot => absurd h.greeted.answered hnot⟩
    obtain rfl : rest = rest' := by simpa [h.greeted.all] using hrest'
    refine ⟨h.ends.act ho' .read, hheard, hwhole rest, hbegin rest, fun hend more => (hsilent hend).run (ho'.act .read) more, ?_⟩
    intro hgoes cause
    obtain ⟨hphase', link', hserving, hnext⟩ := hopen hgoes
    exact heard_interrupted (ho'.act .read) hphase' hserving hnext cause
  | delivered rest h =>
    obtain ⟨hsilent, hsame⟩ := h.silent.act ho' .read
    have hextends := extends_nil (finished actions)
    refine ⟨fun rest' _ hrest' => ?_, fun hnot => absurd h.greeted.answered hnot⟩
    obtain rfl : rest = rest' := by simpa [h.greeted.all] using hrest'
    have hheard := h.heard _ _ hextends
    have hendless := h.endless _ _ hextends
    rw [List.append_nil] at hheard hendless
    refine ⟨h.ends.act ho' .read, ?_, hwhole rest, hbegin rest, fun _ more => hsilent.run (ho'.act .read) more, ?_⟩
    · rw [← hl.hears_available]
      exact hsame.trans hheard
    · intro hgoes
      rw [hgoes] at hendless
      cases hendless

/-- The answer in two parts, a message cut in the middle of its header lines and a body that is not JSON,
with a reader that runs in between. -/
def cutStream : List Action :=
  let answer := Text.Utf8.encode greeting
  let message := encode (.ofHeaders "a" none .null)
  [.arrive (answer.take 7), .start 1, .arrive (answer.drop 7 ++ message.take 9), .read,
    .arrive (message.drop 9 ++ (Frame.mk "b" none [0xFF]).octets), .turn, .finish]

/-- The message is told, the bad body is left out, and then the end is told. -/
theorem stream_delivered_cut :
    (State.run { address := "h:1" } ([.listen { name := "l" }, .start 0, .opened] ++ (cutStream ++ [.read]))).heard =
      [("l", .message (.ofHeaders "a" none .null)), ("l", .endOfStream), ("l", .closed)] := by
  have hattempts : (State.run { address := "h:1" } [.listen { name := "l" }, .start 0, .opened]).attempts =
      [⟨0, .greeted []⟩] := rfl
  have hactions : ∀ a ∈ cutStream, a.undisturbing = true := by decide
  have hdelivered := stream_delivered "h:1" rfl hattempts rfl (fun _ => rfl) hactions
  rw [run_append]
  exact (hdelivered.1 (encode (.ofHeaders "a" none .null) ++ (Frame.mk "b" none [0xFF]).octets) ⟨_, rfl⟩ rfl).2.1

end State

end RemoteDebug.Socket
