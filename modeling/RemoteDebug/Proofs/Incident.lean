import RemoteDebug.Proofs.Occasion

/-! What one action does, step by step.

An action is the doing of a call, or it comes from outside. As long as nothing
ends, what comes from outside is a chain of incidents (`incidents_act`), and what a
call does a chain of changes. So what every incident and every end keeps is kept
by whatever comes from outside (`act_of_incidents`), and an action that ends
nothing is a chain of moves without an end. -/
namespace RemoteDebug.Engine
open Protocol Wire
open Relation (ReflTransGen)

/-- Neither does the owner drop the browser, nor does a message reach a tab past the connection. -/
def Action.isOrdinary : Action → Bool
  | .handle .. | .dropBrowser => false
  | _ => true

/-- No message comes in. -/
def Action.isReplyFree : Action → Bool
  | .receive | .deliver _ | .separateMessage _ => false
  | a => a.isOrdinary

/-- The action is not the doing of a call. -/
def Action.isOutside : Action → Bool
  | .start .. | .resume _ | .cancel _ => false
  | _ => true

/-- A message for a tab can come in. -/
def Action.reachesTabs : Action → Bool
  | .receive | .deliver _ | .handle .. => true
  | _ => false

/-- Whether an action can note an entry: requests go out where a call goes on, other messages by a command,
and a debugger reports to a listener by a message. -/
def Action.mayNote (a : Action) : Entry → Bool
  | .sent (some _) _ => match a with
    | .resume _ => true
    | _ => false
  | .sent none _ => match a with
    | .command .. => true
    | _ => false
  | .event _ (.navigated ..) | .event _ (.closed _) => a.reachesTabs
  | _ => true

namespace State

variable {s s' : State} {a : Action} {o : Occasion}

/-- What can happen by an action that comes from outside, short of an end. -/
inductive Incident (a : Action) (s : State) : State → Prop
  | noted (es : List Entry) (plain : ∀ e ∈ es, e.isPlain = true) (may : ∀ e ∈ es, a.mayNote e = true) :
      Incident a s (s.note es)
  | wired (c : Connection) (connected : c.connected = s.connection.connected)
      (listeners : c.listeners = s.connection.listeners) (closes : c.closes = s.connection.closes)
      (starts : c.starts = s.connection.starts) : Incident a s { s with connection := c }
  | tweaked (t : Instance) (f : Tab → Tab) (keeps : Keeps f)
      (attaching : ∀ x, (f x).attaching = x.attaching) : Incident a s (s.modifyTab t f)
  | aged (ms : Nat) : Incident a s { s with clock := s.clock + ms }
  | separated : Incident a s { s with separate := s.separate.failAll }
  | answered {d : Desk} {command : String} {s' : State} (h : Answer s d command s')
      (heard : a.isReplyFree = false) (routed : a.isOrdinary = true → ∀ t, d = .tab t → s.Enlisted t) :
      Incident a s s'
  | dropped (drops : a = .dropBrowser) : Incident a s { s with browser := false }

def Incidents (a : Action) : State → State → Prop := ReflTransGen (Incident a)

/-! ### Messages -/

theorem incidents_logged (s : State) (a : Action) (n : Option Notice) : Incidents a s (s.logged n) := by
  rw [logged_eq]
  exact .single (.noted _ (notices_kind (fun _ => rfl) n) (notices_kind (fun _ => rfl) n))

theorem Brings.incidents {d : Desk} {reply : Option String} (h : Brings s d reply s')
    (may : ∀ e, d.notes e = true → a.mayNote e = true) (heard : a.isReplyFree = false)
    (routed : a.isOrdinary = true → ∀ t, d = .tab t → s.Enlisted t) : Incidents a s s' := by
  obtain ⟨s₁, es, noted, rfl, hr⟩ := h
  refine .tail ?_ (.noted es (plain_of_notes noted) fun e he => may e (noted e he))
  cases reply with
  | none =>
    obtain rfl := hr
    exact .refl
  | some command => exact .single (.answered hr heard routed)

theorem Action.mayNote_of_notes (through : a.reachesTabs = true) {d : Desk} {e : Entry}
    (h : d.notes e = true) : a.mayNote e = true := by
  unfold Desk.notes at h
  split at h
  · rfl
  · rfl
  · exact through
  · exact through
  · cases h

theorem Action.heard_of_reachesTabs (through : a.reachesTabs = true) : a.isReplyFree = false := by
  cases a <;> first | rfl | cases through

theorem incidents_tabMessage {t : Instance} {m : Message} (through : a.reachesTabs = true)
    (routed : a.isOrdinary = true → s.Enlisted t) (quiet : s.closing? t m = none) :
    Incidents a s (s.tabMessage t m) := by
  cases ht : s.tab? t with
  | none =>
    unfold tabMessage
    rw [ht]
    exact .refl
  | some tab =>
    have hb := brings_tabMessage (by rw [ht]; rfl) quiet
    refine hb.incidents (fun e => Action.mayNote_of_notes through) (Action.heard_of_reachesTabs through) ?_
    rintro ordinary u ⟨⟩
    exact routed ordinary

theorem incidents_deliver {m : Message} (through : a.reachesTabs = true) (quiet : s.delivering? m = none) :
    Incidents a s (s.deliver m) := by
  unfold delivering? at quiet
  unfold deliver
  split
  · next listens =>
    rw [if_pos listens] at quiet
    unfold dispatch
    cases hr : s.recipient m with
    | service p =>
      have hb := brings_serviceMessage (service_of_recipient hr) m
      exact hb.incidents (fun e => Action.mayNote_of_notes through) (Action.heard_of_reachesTabs through)
        fun _ _ => Desk.noConfusion
    | tab t =>
      rw [hr] at quiet
      exact incidents_tabMessage through (fun _ => registered_of_recipient hr) quiet
    | nobody n => exact incidents_logged s a n
  · exact .refl

theorem incident_popped (s : State) (a : Action) (rest : List Message) : Incident a s (s.popped rest) :=
  .wired _ rfl rfl rfl rfl

/-! ### Commands -/

/-- What a connection is does not depend on what is sent over it. -/
theorem starts_send (c : Connection) (m : Message) : (c.send m).1.starts = c.starts := by
  unfold Connection.send
  split
  · rfl
  · split
    · rfl
    · split <;> rfl

theorem incidents_command (s : State) (t : Instance) (c : DebuggerCommand) :
    Incidents (.command t c) s (s.command t c).1 := by
  have hsend : ∀ m, Incidents (.command t c) s (s.send none m).1 := by
    intro m
    obtain ⟨connected, listeners, closes⟩ := send_keeps s.connection m
    have hposted : ∀ e ∈ posted none m (s.connection.send m).2,
        e.isPlain = true ∧ (Action.command t c).mayNote e = true := by
      intro e he
      unfold posted at he
      split at he
      · rw [List.mem_singleton.mp he]
        exact ⟨rfl, rfl⟩
      · cases he
    rw [send_eq]
    exact .tail (.single (.wired _ connected listeners closes (starts_send _ m)))
      (.noted _ (fun e he => (hposted e he).1) fun e he => (hposted e he).2)
  unfold command
  split
  · exact .refl
  · next tab _ =>
    have h := hsend (c.toMessage tab.id)
    split <;> next he => rw [he] at h; exact h

theorem incidents_askContext (s : State) (t : Instance) {what : TabEvent}
    (plain : (Entry.event t what).isPlain = true) (may : a.mayNote (.event t what) = true) {f : Tab → Tab}
    (keeps : Keeps f) (attaching : ∀ x, (f x).attaching = x.attaching) :
    Incidents a s (s.askContext t what f) := by
  unfold askContext
  split
  · exact .tail (.single (.noted _ (singleton_kind plain) (singleton_kind may)))
      (.tweaked t f keeps attaching)
  · exact .refl

/-! ### Actions -/

/-- As long as nothing ends, what comes from outside is a chain of incidents. -/
theorem incidents_act (outside : a.isOutside = true) (quiet : s.occasion? a = none) :
    Incidents a s (s.act a) := by
  cases a with
  | start id r => cases outside
  | resume id => cases outside
  | cancel id => cases outside
  | receive =>
    simp only [occasion?] at quiet
    simp only [act, receive]
    split
    · exact .refl
    · next m rest hi =>
      simp only [hi] at quiet
      exact .head (incident_popped s _ rest) (incidents_deliver rfl quiet)
  | deliver m => exact incidents_deliver rfl quiet
  | handle t m => exact incidents_tabMessage rfl (fun h => by cases h) quiet
  | close => cases quiet
  | terminate id =>
    simp only [occasion?, terminating?] at quiet
    simp only [act]
    split
    · next alive =>
      rw [if_pos alive] at quiet
      cases quiet
    · exact .refl
  | tabTerminated t =>
    simp only [occasion?, terminating?] at quiet
    simp only [act, tabTerminated]
    split
    · next tab ht =>
      rw [ht] at quiet
      split
      · next alive =>
        rw [Option.bind_some, if_pos alive] at quiet
        cases quiet
      · exact .refl
    · exact .refl
  | detached t => cases quiet
  | command t c => exact incidents_command s t c
  | breakpoint t spec =>
    exact incidents_askContext s t rfl rfl
      ⟨fun _ => rfl, fun _ => rfl, fun _ => rfl, fun _ => rfl, fun _ => rfl⟩ fun _ => rfl
  | scripts t =>
    exact incidents_askContext s t rfl rfl
      ⟨fun _ => rfl, fun _ => rfl, fun _ => rfl, fun _ => rfl, fun _ => rfl⟩ fun _ => rfl
  | separateMessage m =>
    refine (brings_separateMessage s m).incidents (fun e he => ?_) rfl fun _ _ => Desk.noConfusion
    unfold Desk.notes at he
    split at he
    · rfl
    · next hd => cases hd
    · next hd => cases hd
    · next hd => cases hd
    · cases he
  | separateDetached => exact .single .separated
  | answerWith key content => exact .single (.wired _ rfl rfl rfl rfl)
  | failStart e => exact .single (.wired _ rfl rfl rfl rfl)
  | failSend e => exact .single (.wired _ rfl rfl rfl rfl)
  | advance ms => exact .single (.aged ms)
  | dropBrowser => exact .single (.dropped rfl)

/-- Until something ends, too, and then nothing more is noted. -/
theorem incidents_before (outside : a.isOutside = true) (h : s.occasion? a = some o) :
    Incidents a s o.before ∧ o.after = [] := by
  have told : ∀ (x : State) t, a.reachesTabs = true → Incident a x (x.tell t .closed) := by
    intro x t through
    rw [tell_eq]
    exact .noted _ (told_kind x t fun _ => rfl) (told_kind x t fun _ => through)
  cases arises h with
  | handled t m => exact ⟨.single (told s t rfl), rfl⟩
  | delivered t m => exact ⟨.single (told s t rfl), rfl⟩
  | received t rest => exact ⟨.tail (.single (incident_popped s _ rest)) (told _ t rfl), rfl⟩
  | granted c k d t mem waits about => cases outside
  | _ => exact ⟨.refl, rfl⟩

/-- What every incident and every end keeps is kept by whatever comes from outside. -/
theorem act_of_incidents {R : State → State → Prop} [Std.Refl R] [IsTrans State R]
    (outside : a.isOutside = true) (incident : Incident a ≤ R) (performed : ∀ x d, R x (x.perform d).1)
    (closed : ∀ x, R x x.close.1) (s : State) : R s (s.act a) := by
  cases h : s.occasion? a with
  | none => exact Relation.reflTransGen_le_of_le incident _ _ (incidents_act outside h)
  | some o =>
    obtain ⟨before, after⟩ := incidents_before outside h
    rw [act_of_occasion h, after, note_nil]
    exact IsTrans.trans _ _ _ (Relation.reflTransGen_le_of_le incident _ _ before)
      (fire_of_duties performed closed _ _)

/-! ### Moves -/

/-- Of the incidents, a reply and the end of the browser alone are more than a move without a reply. -/
theorem Incident.replyFree_or (h : Incident a s s') : ReplyFreeMove s s' ∨
    (∃ d command, Answer s d command s' ∧ a.isReplyFree = false ∧
      (a.isOrdinary = true → ∀ t, d = .tab t → s.Enlisted t)) ∨
    (a = .dropBrowser ∧ s' = { s with browser := false }) := by
  cases h with
  | noted es plain may => exact Or.inl (.change (.noted es plain))
  | wired c connected listeners closes starts => exact Or.inl (.wired c connected listeners closes)
  | tweaked t f keeps attaching => exact Or.inl (.tweaked t f keeps)
  | aged ms => exact Or.inl (.aged ms)
  | separated => exact Or.inl .separated
  | answered h heard routed => exact Or.inr (Or.inl ⟨_, _, h, heard, routed⟩)
  | dropped drops => exact Or.inr (Or.inr ⟨drops, rfl⟩)

theorem Incident.replyFree (h : Incident a s s') (free : a.isReplyFree = true) : ReplyFreeMove s s' := by
  rcases h.replyFree_or with h | ⟨_, _, _, heard, _⟩ | ⟨rfl, _⟩
  · exact h
  · rw [free] at heard
    cases heard
  · cases free

theorem Incident.bypassFree (h : Incident a s s') (ordinary : a.isOrdinary = true) :
    BypassFreeMove s s' := by
  rcases h.replyFree_or with h | ⟨_, _, h, _, routed⟩ | ⟨rfl, _⟩
  · exact .replyFree h
  · exact .answer h (routed ordinary)
  · cases ordinary

theorem Incident.endFree (h : Incident a s s') : EndFreeMove s s' := by
  rcases h.replyFree_or with h | ⟨d, _, h, _, _⟩ | ⟨_, rfl⟩
  · exact .bypassFree (.replyFree h)
  · cases d with
    | tab t => exact .handed h
    | _ => exact .bypassFree (.answer h fun _ => Desk.noConfusion)
  · exact .dropped

theorem replyFree_popped (s : State) (rest : List Message) : ReplyFreeMove s (s.popped rest) :=
  .wired _ rfl rfl rfl

theorem Sound.changes_resume (hs : s.Sound) {c : Call} (hc : c ∈ s.calls)
    (h : s.ousting? c = none) : Changes s (s.resume c) := by
  cases hr : s.runnable c with
  | true => exact (hs.advance_resume hc hr (ousts_of_ousting h)).1
  | false =>
    rw [resume_of_not_runnable hr]
    exact .refl

theorem changes_cancel (s : State) (id : CallId) : Changes s (s.cancel id) := by
  unfold cancel
  split
  · exact .refl
  · next c hc =>
    have hm := (call_of_call? hc).1
    split
    · next k d hp => exact .single (.quit c k d hm hp)
    · next hne => exact .single (.retired c hm hne)

theorem replyFree_start (s : State) (id : CallId) (r : Request) : ReplyFreeMoves s (s.start id r) := by
  unfold start
  split
  · exact .refl
  · next h => exact .single (.opened id r (by simpa using h))

/-- What a call does, or the making of a call, hands over no reply. -/
theorem Sound.replyFree_call (hs : s.Sound) (own : a.isOutside = false) (quiet : s.occasion? a = none) :
    ReplyFreeMoves s (s.act a) := by
  cases a with
  | start id r => exact replyFree_start s id r
  | resume id =>
    simp only [act]
    cases hc : s.call? id with
    | none => exact .refl
    | some c =>
      refine (hs.changes_resume (call_of_call? hc).1 ?_).replyFree
      simpa only [occasion?, hc, Option.bind_some] using quiet
  | cancel id => exact (changes_cancel s id).replyFree
  | _ => cases own

theorem Sound.replyFree_act (hs : s.Sound) (free : a.isReplyFree = true) (quiet : s.occasion? a = none) :
    ReplyFreeMoves s (s.act a) := by
  cases outside : a.isOutside with
  | false => exact hs.replyFree_call outside quiet
  | true => exact ReflTransGen.lift id (fun _ _ h => h.replyFree free) _ _ (incidents_act outside quiet)

theorem Sound.bypassFree_act (hs : s.Sound) (ordinary : a.isOrdinary = true) (quiet : s.occasion? a = none) :
    BypassFreeMoves s (s.act a) := by
  cases outside : a.isOutside with
  | false => exact (hs.replyFree_call outside quiet).bypassFree
  | true => exact ReflTransGen.lift id (fun _ _ h => h.bypassFree ordinary) _ _ (incidents_act outside quiet)

theorem Sound.endFree_act (hs : s.Sound) (quiet : s.occasion? a = none) : EndFreeMoves s (s.act a) := by
  cases outside : a.isOutside with
  | false => exact (hs.replyFree_call outside quiet).bypassFree.endFree
  | true => exact ReflTransGen.lift id (fun _ _ h => h.endFree) _ _ (incidents_act outside quiet)

/-- Until something ends, no reply is handed over. -/
theorem replyFree_before (h : s.occasion? a = some o) : ReplyFreeMoves s o.before := by
  have told : ∀ (x : State) t, ReplyFreeMove x (x.tell t .closed) := by
    intro x t
    rw [tell_eq]
    exact .change (.noted _ (told_kind x t fun _ => rfl))
  cases arises h with
  | handled t m => exact .single (told s t)
  | delivered t m => exact .single (told s t)
  | received t rest => exact .tail (.single (replyFree_popped s rest)) (told _ t)
  | granted c k d t mem waits about => exact .single (.change (.quit c k d mem waits))
  | _ => exact .refl

theorem plain_after (h : s.occasion? a = some o) : ∀ e ∈ o.after, e.isPlain = true := by
  intro e he
  rcases after_of_occasion h with hn | ⟨id, t, hd⟩
  · rw [hn] at he
    cases he
  · rw [hd] at he
    rw [List.mem_singleton.mp he]
    rfl

theorem Sound.moves_act (hs : s.Sound) (a : Action) : Moves s (s.act a) := by
  cases h : s.occasion? a with
  | none => exact (hs.endFree_act h).moves
  | some o =>
    rw [act_of_occasion h]
    exact ((replyFree_before h).bypassFree.endFree.moves.trans (moves_fire o.before o.trigger)).trans
      (changes_note _ (plain_after h)).bypassFree.endFree.moves

theorem Sound.act (hs : s.Sound) (a : Action) : (s.act a).Sound := (hs.moves_act a).sound hs

theorem Sound.run (hs : s.Sound) (actions : List Action) : (s.run actions).Sound := by
  induction actions generalizing s with
  | nil => exact hs
  | cons a rest ih => exact ih (hs.act a)

end State
end RemoteDebug.Engine
