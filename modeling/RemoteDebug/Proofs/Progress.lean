import RemoteDebug.Proofs.Agreement
import RemoteDebug.Proofs.Idleness
import RemoteDebug.Proofs.Routing
import RemoteDebug.Proofs.Schedule
import RemoteDebug.Proofs.Turns

/-! A tab that is left in peace can be used.

Whatever has gone on before, a tab that no call is about has nobody in its line and nobody in its table.
So a call for it begins at once, its request goes out over a connection that works, and since it is the
only one that waits there, the reply is its own. An attach has taken its place in the registry by then, so
the reply finds it; a detach takes the place away, and with it the connection if nobody else needs it. -/
namespace RemoteDebug.Engine
open Protocol Wire

theorem Request.tab?_of_need {r : Request} {t : Instance} (h : r.need? = some (.tab t)) :
    r.tab? = some t := by
  cases r <;> simp_all [Request.need?, Request.tab?]

namespace State

variable {s s' : State} {c : Call} {t u : Instance} {id : TabId} {tab : Tab} {a : Action} {k : Ticket}

/-! ### The settings stay -/

theorem config_changeLock (s : State) (r : Request) (f : List CallId → List CallId) :
    (s.changeLock r f).config = s.config := by
  cases r <;> rfl

theorem config_quit (s : State) (c : Call) (k : Ticket) : (s.quit c k).config = s.config := by
  unfold quit retire
  rw [config_changeLock]
  cases c.request <;> rfl

theorem config_asked (s : State) (c : Call) (m : Message) : (s.asked c m).config = s.config := by
  unfold asked
  rw [send_eq]
  show (s.enter c).config = _
  unfold enter join
  cases c.request <;> rfl

theorem Change.config (h : Change s s') : s'.config = s.config := by
  cases h with
  | served =>
    unfold ensureService
    split <;> rfl
  | unmarked r => cases r <;> rfl
  | lined c mem fresh => exact config_changeLock s _ _
  | asked c m ready sent => exact config_asked s c m
  | refused c m ready e unsent => exact (config_quit _ c _).trans (config_asked s c m)
  | quit c k d mem waits => exact config_quit s c k
  | retired c mem idle => exact config_changeLock _ _ _
  | granted c t l k d v mem about waits answered => exact config_quit s c k
  | _ => rfl

theorem Move.config (h : Move s s') : s'.config = s.config := by
  cases h with
  | endFree h =>
    cases h with
    | bypassFree h =>
      cases h with
      | replyFree h =>
        cases h with
        | change h => exact h.config
        | _ => rfl
      | answer h routed => cases h <;> rfl
    | handed h =>
      cases h
      rfl
    | dropped => rfl
  | performed d =>
    have happart := congrArg State.config (apart_perform s d)
    exact happart
  | closed =>
    have happart := congrArg State.config (apart_close s)
    exact happart

theorem Moves.config (h : Moves s s') : s'.config = s.config := by
  induction h with
  | refl => rfl
  | tail steps step ih => exact step.config.trans ih

/-! ### While the browser is kept -/

/-- What holds between any two actions as long as the owner keeps the browser. -/
structure Standing (config : Config) (s : State) : Prop where
  sound : s.Sound
  tidy : s.view.Tidy
  attended : s.Attended
  candid : ∀ t, s.Candid t
  tied : ∀ t, s.Tied t
  browser : s.browser = true
  config : s.config = config

variable {config : Config}

theorem standing_initial (config : Config) (restartable : Bool) (rules : List (String × Json)) :
    Standing config (initial config restartable rules) where
  sound := sound_initial config restartable rules
  tidy := tidy_initial config restartable rules
  attended := attended_initial config restartable rules
  candid := candid_initial config restartable rules
  tied := tied_initial config restartable rules
  browser := rfl
  config := rfl

theorem Standing.act (h : Standing config s) (kept : a ≠ .dropBrowser) : Standing config (s.act a) where
  sound := h.sound.act a
  tidy := (h.sound.moves_act a).tidy h.sound h.tidy
  attended := h.attended.act h.sound a
  candid := fun t => h.sound.candid_act a (h.candid t)
  tied := fun t => (h.sound.moves_act a).tied h.sound (h.tied t)
  browser := (h.sound.browser_act kept).trans h.browser
  config := (h.sound.moves_act a).config.trans h.config

theorem Standing.run (h : Standing config s) {actions : List Action} (kept : .dropBrowser ∉ actions) :
    Standing config (s.run actions) := by
  induction actions generalizing s with
  | nil => exact h
  | cons a rest ih =>
    rw [List.mem_cons, not_or] at kept
    exact ih (h.act (Ne.symm kept.1)) kept.2

theorem Standing.listens (h : Standing config s) (connected : s.connection.connected = true) :
    s.listens = true :=
  h.attended.listens connected (alive_of_browser h.browser)

/-! ### A call begins at once -/

/-- No call is about the tab. -/
def Free (s : State) (t : Instance) : Prop := ∀ c ∈ s.calls, c.request.tab? ≠ some t

instance (s : State) (t : Instance) : Decidable (s.Free t) :=
  inferInstanceAs (Decidable (∀ c ∈ s.calls, _))

/-- In the line for a tab stand only calls that are about it. -/
theorem Free.lock (free : s.Free t) (tidy : s.view.Tidy) : s.view.lock (.tab t) = [] := by
  refine List.eq_nil_iff_forall_not_mem.mpr fun id hid => ?_
  obtain ⟨c, hc, _, hn⟩ := tidy.queues _ id hid
  exact free c hc (Request.tab?_of_need hn)

/-- The session with a call that has just been made. -/
def joined (s : State) (id : CallId) (r : Request) : State :=
  { s with calls := s.calls ++ [({ id, request := r } : Call)] }

theorem canStart_of_tab {id : CallId} {r : Request} (about : r.tab? = some t) (known : s.tab? t = some tab)
    (new : s.call? id = none) : s.canStart id r = true := by
  unfold canStart
  rw [new, about]
  cases r <;> simp_all [Request.tab?, Request.holdsSession]

/-- A call that finds the line for its tab empty begins. -/
theorem Sound.admits_of_empty (hs : s.Sound) (hc : c ∈ s.calls) (fresh : c.point = .fresh)
    (about : c.request.tab? = some t) (empty : s.view.lock (.tab t) = []) : s.Admits c := by
  have idle : c.Idle := fun k d => by rw [fresh]; exact Point.noConfusion
  have hview : (s.lined c).view = s.view.changeLock c.request (· ++ [c.id]) := by
    unfold State.lined
    rw [if_pos fresh]
    exact view_changeLock s _ _ (Or.inl (hs.hasTab hc))
  have hmem : c ∈ (s.lined c).calls := by
    rw [calls_lined]
    exact hc
  refine ⟨idle, ((hs.lined hc).holds hmem).mpr fun n hn => ?_⟩
  obtain rfl : n = .tab t := Option.some.inj (hn.symm.trans (Request.need?_of_tab? about))
  rw [hview, View.lock_changeLock, if_pos hn, empty]
  rfl

/-! ### Its request goes out -/

theorem sent_of_connected {w : Connection} (m : Message) (connected : w.connected = true)
    (faultless : w.sendFaults = []) : (w.send m).2 = .ok () := by
  unfold Connection.send
  rw [faultless]
  dsimp only
  rw [connected]
  cases w.answer? m <;> rfl

theorem clock_asked (s : State) (c : Call) (m : Message) : (s.asked c m).clock = s.clock := by
  unfold asked
  rw [send_eq]
  show (s.enter c).clock = _
  unfold enter join
  cases c.request <;> rfl

/-- A call whose request went out waits, if it has any time to. -/
theorem Sound.ask_of_sent (hs : s.Sound) (ready : s.Ready c) {m : Message}
    (sent : (s.connection.send m).2 = .ok ()) (patient : 0 < s.allowance c.request) :
    s.ask c m = s.asked c m ∧ (s.asked c m).journal = s.journal ++ [.sent (some c.id) m] := by
  have hsent : ((s.enter c).send (some c.id) m).2 = .ok () := by
    rw [result_send, connection_enter]
    exact sent
  have hwaits := hs.waits_seated ready m
  have hstill : (s.asked c m).runnable (s.seated c) = false := by
    rw [← Bool.not_eq_true, (hs.asked ready m).runnable_iff hwaits.1]
    show ¬ (s.deadline (s.allowance c.request) ≤ (s.asked c m).clock ∨
      ∃ x, ((s.asked c m).board c.request.desk).receiver? (s.nextTicket c.request) = some x ∧ x ≠ .waiting)
    rw [clock_asked, hs.receiver_seated ready m]
    unfold deadline
    rintro (h | ⟨x, hx, hne⟩)
    · omega
    · exact hne (Option.some.inj hx).symm
  refine ⟨?_, ?_⟩
  · rw [ask_of_ok hsent]
    exact poll_of_not_runnable (c := s.seated c) rfl hstill
  · rw [journal_asked, hsent]
    rfl

/-- A call waits for the reply to an exchange with the tab that is registered under an id. -/
structure Underway (s : State) (t : Instance) (id : TabId) (c : Call) : Prop where
  mem : c ∈ s.calls
  about : c.request.tab? = some t
  silent : ∃ k d, c.point = .awaiting k d ∧ (s.view.board (.tab t)).receiver? k = some .waiting
  registered : s.registered? id = some t
  connected : s.connection.connected = true

theorem Sound.underway_asked (hs : s.Sound) (ready : s.Ready c) (about : c.request.tab? = some t)
    (registered : s.registered? id = some t) (connected : s.connection.connected = true) (m : Message) :
    (s.asked c m).Underway t id (s.seated c) where
  mem := (hs.waits_seated ready m).1
  about := about
  silent := by
    have hwaiting := hs.receiver_seated ready m
    rw [desk_of_tab? about] at hwaiting
    exact ⟨_, _, rfl, hwaiting⟩
  registered := by
    show (s.asked c m).view.registry.lookup id = some t
    rw [view_asked s ready m]
    exact registered
  connected := by
    rw [connection_asked, (send_keeps s.connection m).1]
    exact connected

/-- A new call has the line for a tab to itself. -/
def admitted (s : State) (t : Instance) (i : CallId) (r : Request) : State :=
  (s.joined i r).modifyTab t fun tab => { tab with lock := tab.lock ++ [i] }

theorem tab?_admitted (known : s.tab? t = some tab) (i : CallId) (r : Request) :
    (s.admitted t i r).tab? t = some { tab with lock := tab.lock ++ [i] } := by
  unfold admitted
  rw [tab?_modifyTab, if_pos rfl]
  show (s.tab? t).map _ = _
  rw [known]
  rfl

/-- The first call for a tab that is free begins. -/
theorem Standing.begins (h : Standing config s) (known : s.tab? t = some tab) (free : s.Free t) {i : CallId}
    (new : s.call? i = none) {r : Request} (about : r.tab? = some t) :
    (s.admitted t i r).Sound ∧ (s.admitted t i r).Poised { id := i, request := r } ∧
      s.run [.start i r, .resume i] = (s.admitted t i r).begin { id := i, request := r } := by
  have can := canStart_of_tab about known new
  have hstart : s.act (.start i r) = s.joined i r := by
    show (if !s.canStart i r then s else s.joined i r) = _
    rw [can]
    rfl
  have hjoined : (s.joined i r).Sound := h.sound.opened can
  have hmem : ({ id := i, request := r } : Call) ∈ (s.joined i r).calls :=
    List.mem_append_right _ (List.mem_singleton.mpr rfl)
  have empty : (s.joined i r).view.lock (.tab t) = [] := free.lock h.tidy
  have hlined : (s.joined i r).lined { id := i, request := r } = s.admitted t i r := by
    unfold lined
    rw [if_pos rfl, changeLock_of_tab? _ about]
    rfl
  have admits := hjoined.admits_of_empty hmem rfl about empty
  have hsound := hjoined.lined hmem
  have poised := hjoined.poised_of_admits hmem admits
  rw [hlined] at hsound poised
  refine ⟨hsound, poised, ?_⟩
  rw [run_cons, run_cons, run_nil, hstart, hjoined.act_resume hmem, resume_of_admits admits, hlined]

/-! ### An attach -/

theorem isLive_modifyTab_of_ne (s : State) (f : Tab → Tab) (h : u ≠ t) :
    (s.modifyTab t f).isLive u = s.isLive u := by
  unfold isLive
  rw [tab?_modifyTab, if_neg (Ne.symm h)]

/-- An instance gets its place if no other instance lives there. -/
theorem registered_register (named : s.view.ident t = some id)
    (others : ∀ u, s.registered? id = some u → u ≠ t → s.isLive u = false) :
    (s.register t).registered? id = some t := by
  obtain ⟨tab, known, rfl⟩ := Option.map_eq_some_iff.mp named
  have henrolled : (s.enroll tab.id t).registered? tab.id = some t := by
    show (assign tab.id t s.registry).lookup tab.id = _
    rw [lookup_assign, if_pos rfl]
  unfold register
  rw [known]
  dsimp only
  cases hu : s.registered? tab.id with
  | none => exact henrolled
  | some u =>
    dsimp only
    split
    · next hstays =>
      -- it has its place already
      by_cases hut : u = t
      · rw [hu, hut]
      · rw [decide_eq_false hut, others u hu hut] at hstays
        cases hstays
    · exact henrolled

theorem listener_placed (known : s.tab? t = some tab) (l : Listener) :
    (s.placed t l).view.listener t = some l := by
  show ((s.placed t l).tab? t).bind _ = _
  rw [tab?_placed, known]
  rfl

theorem registered_placed (alive : s.alive = true) (known : s.tab? t = some tab)
    (others : ∀ u, s.registered? tab.id = some u → u ≠ t → s.isLive u = false) (l : Listener) :
    (s.placed t l).registered? tab.id = some t := by
  have hnamed : (s.mark t l).view.ident t = some tab.id := by
    rw [view_mark s t l (by rw [known]; rfl)]
    show (s.tab? t).map _ = _
    rw [known]
    rfl
  have halive : (s.mark t l).alive = true := alive
  unfold placed
  rw [if_pos halive]
  refine registered_register hnamed fun u hu hne => ?_
  unfold mark
  rw [isLive_modifyTab_of_ne s _ hne]
  exact others u hu hne

/-- An attach of a free tab goes out, and then the tab has its place and the listener. -/
theorem Standing.attach_asks (h : Standing config s) (patient : 0 < config.timeout)
    (connected : s.connection.connected = true) (faultless : s.connection.sendFaults = [])
    (known : s.tab? t = some tab) (free : s.Free t) {i : CallId} (new : s.call? i = none)
    (detached : tab.attached = false)
    (others : ∀ u, s.registered? tab.id = some u → u ≠ t → s.isLive u = false) (l : Listener) :
    let asked := s.run [.start i (.attach t l), .resume i]
    asked.journal = s.journal ++ [.sent (some i) (DebuggerCommand.attach.toMessage tab.id)] ∧
      asked.view.listener t = some l ∧
      ∃ c, c.id = i ∧ c.request = .attach t l ∧ asked.Underway t tab.id c := by
  intro asked
  obtain ⟨hx, poised, hbegin⟩ := h.begins known free new (r := .attach t l) rfl
  have hknown := tab?_admitted known i (.attach t l)
  have hregistered := registered_placed (s := s.admitted t i (.attach t l)) (alive_of_browser h.browser)
    hknown (fun u hu hne => (isLive_modifyTab_of_ne _ _ hne).trans (others u hu hne)) l
  have hlistener := listener_placed hknown l
  have hjournal : ((s.admitted t i (.attach t l)).placed t l).journal = s.journal := journal_placed _ t l
  obtain ⟨registry, hplaced⟩ := placed_eq (s.admitted t i (.attach t l)) t l
  have hconnection : ((s.admitted t i (.attach t l)).placed t l).connection = s.connection := by
    rw [hplaced]
    rfl
  have hconfig : ((s.admitted t i (.attach t l)).placed t l).config = s.config := by
    rw [hplaced]
    rfl
  obtain ⟨hy, ready⟩ := poised.ready_placed hx rfl hknown detached
  have hattach := beginAttach_of_detached (c := { id := i, request := .attach t l }) (l := l) hknown detached
  generalize (s.admitted t i (.attach t l)).placed t l = y at *
  have sent := sent_of_connected (w := y.connection) (DebuggerCommand.attach.toMessage tab.id)
    (by rw [hconnection, connected]) (by rw [hconnection, faultless])
  have time : 0 < y.allowance (.attach t l) := by
    show 0 < y.config.timeout
    rw [hconfig, h.config]
    exact patient
  obtain ⟨hask, hasked⟩ := hy.ask_of_sent ready sent time
  have hrun : asked = y.asked { id := i, request := .attach t l }
      (DebuggerCommand.attach.toMessage tab.id) := hbegin.trans (hattach.trans hask)
  rw [hrun]
  refine ⟨by rw [hasked, hjournal], ?_, _, rfl, rfl, hy.underway_asked ready rfl hregistered ?_ _⟩
  · rw [view_asked _ ready]
    exact hlistener
  · rw [hconnection, connected]

/-! ### A detach -/

theorem isLive_asked_of_ne (s : State) (about : c.request.tab? = some t) (m : Message) (h : u ≠ t) :
    (s.asked c m).isLive u = s.isLive u := by
  have hjoin : (s.join c.request).isLive u = s.isLive u := by
    unfold join
    rw [about]
    exact isLive_modifyTab_of_ne s _ h
  rw [← hjoin]
  unfold asked
  rw [send_eq]
  rfl

/-- A detach of a free tab goes out, and the tab stays attached and in its place. -/
theorem Standing.detach_asks (h : Standing config s) (patient : 0 < config.timeout)
    (connected : s.connection.connected = true) (faultless : s.connection.sendFaults = [])
    (known : s.tab? t = some tab) (free : s.Free t) {i : CallId} (new : s.call? i = none)
    (attached : tab.attached = true) (registered : s.registered? tab.id = some t) :
    let asked := s.run [.start i (.detach t), .resume i]
    asked.journal = s.journal ++ [.sent (some i) (DebuggerCommand.detach.toMessage tab.id)] ∧
      asked.isAttached t = true ∧ asked.registry = s.registry ∧
      (∀ u, u ≠ t → asked.isLive u = s.isLive u) ∧
      ∃ c, c.id = i ∧ c.request = .detach t ∧ asked.Underway t tab.id c := by
  intro asked
  obtain ⟨hx, poised, hbegin⟩ := h.begins known free new (r := .detach t) rfl
  have hknown := tab?_admitted known i (.detach t)
  have hattached : (s.admitted t i (.detach t)).isAttached t = true := by
    unfold isAttached
    rw [hknown]
    exact attached
  have ready := poised.ready hx hattached
  have sent := sent_of_connected (w := (s.admitted t i (.detach t)).connection)
    (DebuggerCommand.detach.toMessage tab.id) connected faultless
  have time : 0 < (s.admitted t i (.detach t)).allowance (.detach t) := by
    show 0 < s.config.timeout
    rw [h.config]
    exact patient
  obtain ⟨hask, hjournal⟩ := hx.ask_of_sent ready sent time
  have hasked : asked = (s.admitted t i (.detach t)).asked { id := i, request := .detach t }
      (DebuggerCommand.detach.toMessage tab.id) := by
    have hdetach := beginDetach_of_attached (c := { id := i, request := .detach t }) hknown attached
    exact hbegin.trans (hdetach.trans hask)
  rw [hasked]
  refine ⟨hjournal, ?_, ?_, fun u hu => ?_, _, rfl, rfl, hx.underway_asked ready rfl registered connected _⟩
  · exact (congrFun (congrArg View.attached (view_asked _ ready _)) t).trans hattached
  · exact congrArg View.registry (view_asked _ ready _)
  · rw [isLive_asked_of_ne _ rfl _ hu]
    exact isLive_modifyTab_of_ne _ _ hu

/-! ### The reply -/

/-- By an action the connection hands over the OK to an exchange with the tab of an id. -/
def Concedes (s : State) (h : Handshake) (id : TabId) (a : Action) : Prop :=
  ∃ m reply, s.arriving? a = some m ∧ m.tool? = some .v8Debugger ∧ m.tab? = some id ∧
    DebuggerReply.ofJson m.content = .ok reply ∧ reply.command = h.name ∧ reply.code.isOk = true

theorem act_of_arriving {m : Message} (arrives : s.arriving? a = some m) :
    ∃ rest, s.act a = (s.popped rest).deliver m := by
  cases a with
  | deliver m' =>
    cases arrives
    exact ⟨s.connection.inbound, rfl⟩
  | receive =>
    obtain ⟨rest, hin⟩ := List.head?_eq_some_iff.mp arrives
    refine ⟨rest, ?_⟩
    simp only [State.act, State.receive]
    rw [hin]
    rfl
  | _ => cases arrives

/-- Whoever waits alone for a tab is reached by the reply. -/
theorem Sound.reached_of_silent (hs : s.Sound) (tidy : s.view.Tidy) {d : Nat} (hc : c ∈ s.calls)
    (about : c.request.tab? = some t) (hp : c.point = .awaiting k d)
    (silent : (s.view.board (.tab t)).receiver? k = some .waiting) :
    (s.tabTable t).reached c.request.command = [k] := by
  have hengages : c.Engages t := ⟨about, fun idle => idle k d hp⟩
  have hlive := (isLive_tabTable s t k).mpr silent
  unfold Pending.reached
  rw [(hs.occupied tidy hc hengages hp).queue, if_pos ⟨rfl, hlive⟩,
    List.dropWhile_cons_of_neg (by simp [hlive])]

/-- The reply to an exchange that is under way comes to the call that waits for it, and nothing else
changes. -/
theorem Standing.reply_arrives (h : Standing config s) (standard : config.routes = .standard)
    (way : s.Underway t id c) {e : Handshake} (about : c.request.handshake? = some (e, t))
    (conceded : s.Concedes e id a) :
    ∃ rest p reply k d, c.point = .awaiting k d ∧ s.act a = (s.popped rest).setTabTable t p ∧
      p.receiver? k = some (.answered reply) ∧ reply.code.isOk = true := by
  obtain ⟨m, reply, arrives, names, destined, read, command, ok⟩ := conceded
  obtain ⟨k, d, hp, silent⟩ := way.silent
  obtain ⟨tab, known⟩ := Option.isSome_iff_exists.mp (h.sound.hasTab way.mem t way.about)
  obtain ⟨rest, hact⟩ := act_of_arriving arrives
  have hcommand : c.request.command = reply.command := by
    rw [Request.command_of_handshake about, command]
  have hreached : tab.pending.reached reply.command = [k] := by
    rw [← hcommand, ← tabTable_of_tab? known]
    exact h.sound.reached_of_silent h.tidy way.mem way.about hp silent
  have hwaiting : tab.pending.receiver? k = some .waiting :=
    Pending.waiting_of_head_reached (c := reply.command) (by rw [hreached]; rfl)
  refine ⟨rest, (tab.pending.complete reply.command reply).2, reply, k, d, hp, ?_, ?_, ok⟩
  · have hkind : reply.kind = .attach ∨ reply.kind = .detach := by
      unfold DebuggerReply.kind
      rw [command]
      cases e
      · exact Or.inl rfl
      · exact Or.inr rfl
    have hreply : (s.popped rest).handshakeReply t tab reply =
        (s.popped rest).setTabTable t (tab.pending.complete reply.command reply).2 := by
      have hfound : (tab.pending.complete reply.command reply).1 = true := by
        rw [Pending.complete_fst, hreached]
        rfl
      unfold handshakeReply
      split
      · next hcomplete => rw [hcomplete]; rfl
      · next hcomplete => rw [hcomplete] at hfound; cases hfound
    have hlistens : (s.popped rest).listens = true := h.listens way.connected
    have hroute : (s.popped rest).config.routes.get .v8Debugger = some .tab := by
      show s.config.routes.get _ = _
      rw [h.config, standard]
      rfl
    have hknown : (s.popped rest).tab? t = some tab := known
    rw [hact]
    unfold deliver dispatch
    rw [if_pos hlistens, recipient_of_tab names hroute destined way.registered]
    dsimp only [tabMessage]
    rw [hknown]
    dsimp only
    rw [read]
    dsimp only
    rcases hkind with hkind | hkind <;> rw [hkind] <;> exact hreply
  · rw [Pending.receiver?_complete, hreached, if_pos List.head?_cons, hwaiting]
    rfl

/-! ### The call goes on -/

theorem answered_setTabTable (known : (s.tab? t).isSome = true) {p : Pending DebuggerReply}
    {reply : DebuggerReply} (heard : p.receiver? k = some (.answered reply)) :
    ((s.setTabTable t p).tabTable t).receiver? k = some (.answered reply) := by
  obtain ⟨tab, ht⟩ := Option.isSome_iff_exists.mp known
  unfold setTabTable
  rw [tabTable_eq, field_modifyTab, if_pos rfl, ht]
  exact heard

/-- An attach that is conceded succeeds, and its tab keeps its place and its listener. -/
theorem Standing.attach_ends (h : Standing config s) (standard : config.routes = .standard)
    (way : s.Underway t id c) {l : Listener} (about : c.request = .attach t l)
    (conceded : s.Concedes .attach id a) :
    let s' := s.run [a, .resume c.id]
    s'.journal = s.journal ++ [.finished c.id (.attach t l) (.handshake (.ok ()))] ∧
      s'.isAttached t = true ∧ s'.registered? id = some t ∧ s'.view.listener t = s.view.listener t := by
  intro s'
  have seeks : c.request.Seeks t := by rw [about]; rfl
  have hs := h.sound.act a
  obtain ⟨rest, p, reply, k, d, hp, hact, heard, ok⟩ := h.reply_arrives standard way seeks conceded
  have hheard : ((s.act a).tabTable t).receiver? k = some (.answered reply) := by
    rw [hact]
    exact answered_setTabTable (h.sound.hasTab way.mem t way.about) heard
  have hmem : c ∈ (s.act a).calls := by
    rw [hact]
    exact way.mem
  have hgranted : s' = (s.act a).granted c t k := by
    show (s.act a).act (.resume c.id) = _
    rw [hs.act_resume hmem]
    unfold resume
    rw [hp]
    exact poll_of_accepted seeks hheard ok
  have hregistered : (s.act a).registered? id = some t := by
    rw [hact]
    exact way.registered
  have hlistener : (s.act a).view.listener t = s.view.listener t := by
    rw [hact, view_setTabTable (s.popped rest) t p (h.sound.hasTab way.mem t way.about)]
    rfl
  rw [hgranted]
  refine ⟨?_, hs.attached_granted_seeks hmem seeks k, ?_, ?_⟩
  · show ((s.act a).quit c k).journal ++ [.finished c.id c.request _] = _
    rw [journal_quit, about, hact]
    rfl
  · show ((s.act a).quit c k).registry.lookup id = _
    rw [registry_quit hs hmem]
    exact hregistered
  · rw [hs.view_granted hmem about k, View.quit_eq]
    exact hlistener

/-! ### The end of an attachment -/

/-- Whether a tab is left that needs the connection once an id is struck. -/
theorem Sound.idle_without (hs : s.Sound) (registered : s.registered? id = some t) :
    (s.strike id).hasLive = false ↔ ∀ u, s.Enlisted u → u ≠ t → s.isLive u = false := by
  show (s.registry.filter (·.1 != id)).any (fun r => s.isLive r.2) = false ↔ _
  rw [List.any_eq_false]
  constructor
  · rintro h u ⟨j, hj⟩ hu
    refine Bool.eq_false_iff.mpr (h (j, u) (List.mem_filter.mpr ⟨hj, bne_iff_ne.mpr ?_⟩))
    rintro rfl
    have hlookup : s.registry.lookup j = some u := lookup_of_mem hs.keys hj
    exact hu (Option.some.inj (hlookup.symm.trans registered))
  · rintro h ⟨j, u⟩ hr
    obtain ⟨hj, hne⟩ := List.mem_filter.mp hr
    refine Bool.eq_false_iff.mp (h u ⟨j, hj⟩ ?_)
    -- an instance has one id
    rintro rfl
    have hid := hs.own id u (mem_of_lookup registered)
    rw [hs.own j u hj] at hid
    exact bne_iff_ne.mp hne (Option.some.inj hid)

/-- In a living session the end of the attachment of a registered tab takes its place away, and closes the
connection if no other tab there is live. -/
theorem Sound.detached_of_registered (hs : s.Sound) (candid : ∀ v, s.Candid v) (tied : ∀ v, s.Tied v)
    (alive : s.alive = true) (connected : s.connection.connected = true) (attached : s.isAttached t = true)
    (registered : s.registered? id = some t) :
    (s.detached t).isAttached t = false ∧ (s.detached t).registered? id = none ∧
      ((s.detached t).connection.connected = false ↔ ∀ u, s.Enlisted u → u ≠ t → s.isLive u = false) := by
  have hended : (s.detached t).isAttached t = false := by
    rw [← Bool.not_eq_true]
    intro ha
    exact ((hs.attached_unwind [.detach t]).mp ha).2 _ (List.mem_singleton.mpr rfl) (Or.inl rfl)
  have hy := hs.perform (.detach t)
  have hregistered : (s.perform (.detach t)).1.registered? id = some t := by
    unfold registered?
    rw [registry_detach]
    exact registered
  have confined := hy.confined_terminated (fun v => candid_perform _ (candid v))
    (fun v => hs.tied_perform _ (tied v)) id
  have hlink := confined.connection.resolve_left (by
    rintro ⟨_, hm⟩
    exact List.not_mem_nil hm)
  have hidle : ((s.perform (.detach t)).1.strike id).hasLive = false ↔
      ∀ u, s.Enlisted u → u ≠ t → s.isLive u = false := by
    rw [hy.idle_without hregistered]
    unfold Enlisted
    rw [registry_detach]
    refine forall_congr' fun u => imp_congr_right fun _ => imp_congr_right fun hu => ?_
    rw [isLive_eq, isLive_eq, isAttaching_perform, attached_detach, if_neg hu]
  refine ⟨hended, ?_⟩
  rw [hs.detached_eq alive attached registered]
  refine ⟨?_, ?_⟩
  · show ((s.perform (.detach t)).1.terminated id).registry.lookup id = none
    rw [confined.registry, lookup_filter_ne, if_pos rfl]
  · rw [hlink, ← hidle]
    unfold linkAfter
    rw [connection_detach, connected, Bool.true_and]
    cases ((s.perform (.detach t)).1.strike id).hasLive with
    | true => simp [connected]
    | false => exact iff_of_true rfl rfl

/-- A detach that is conceded succeeds: the tab is not attached any more and has lost its place, and the
connection closes if no other registered tab is live. -/
theorem Standing.detach_ends (h : Standing config s) (standard : config.routes = .standard)
    (way : s.Underway t id c) (about : c.request = .detach t) (attached : s.isAttached t = true)
    (conceded : s.Concedes .detach id a) :
    let s' := s.run [a, .resume c.id]
    (∃ news, s'.journal = s.journal ++ news ++ [.finished c.id (.detach t) (.handshake (.ok ()))]) ∧
      s'.isAttached t = false ∧ s'.registered? id = none ∧ (s'.connection.connected = false ↔
        ∀ u, s.Enlisted u → u ≠ t → s.isLive u = false) := by
  intro s'
  have exchange : c.request.handshake? = some (.detach, t) := by rw [about]; rfl
  have stays : ∀ v, ¬ c.request.Seeks v := fun v hv => by
    unfold Request.Seeks at hv
    rw [exchange] at hv
    cases hv
  have kept : a ≠ .dropBrowser := by
    rintro rfl
    obtain ⟨_, _, arrives, _⟩ := conceded
    cases arrives
  have h₂ := h.act kept
  obtain ⟨rest, p, reply, k, d, hp, hact, heard, ok⟩ := h.reply_arrives standard way exchange conceded
  have hknown := h.sound.hasTab way.mem t way.about
  have hheard : ((s.act a).tabTable t).receiver? k = some (.answered reply) := by
    rw [hact]
    exact answered_setTabTable hknown heard
  have hmem : c ∈ (s.act a).calls := by
    rw [hact]
    exact way.mem
  have hends : s' = ((((s.act a).quit c k).detached t)).report c (.handshake (.ok ())) := by
    have hw : (s.act a).waitEnd? ((s.act a).tabTable t) c.request k d = some (.ok reply) :=
      waitEnd?_ok.mpr hheard
    rw [about] at hw
    show (s.act a).act (.resume c.id) = _
    rw [h₂.sound.act_resume hmem]
    unfold resume poll
    rw [hp]
    simp only [about, Request.tab?, hw, handshakeEnds, detachEnds, ok, if_true]
  -- once the call has left, its tab is still as it was
  have hquit : Change (s.act a) ((s.act a).quit c k) := .quit c k d hmem hp
  have beside : ∀ v, Beside v (s.act a) ((s.act a).quit c k) := fun v =>
    h₂.sound.beside_quit hmem hp (stays v)
  have hattached : ((s.act a).quit c k).isAttached t = true := by
    rw [(beside t).attached, hact]
    refine (congrFun (congrArg View.attached (view_setTabTable (s.popped rest) t p hknown)) t).trans ?_
    exact attached
  have hregistry : ((s.act a).quit c k).registry = s.registry := by
    rw [registry_quit h₂.sound hmem, hact]
    rfl
  have hregistered : ((s.act a).quit c k).registered? id = some t := by
    unfold registered?
    rw [hregistry]
    exact way.registered
  have hconnected : ((s.act a).quit c k).connection.connected = true := by
    rw [connection_quit, hact]
    exact way.connected
  obtain ⟨hended, hgone, hclosed⟩ := (hquit.sound h₂.sound).detached_of_registered
    (fun v => (beside v).candid (h₂.candid v))
    (fun v => ReplyFreeMove.tied (.change hquit) h₂.sound (h₂.tied v))
    (alive_of_browser ((browser_quit _ c k).trans h₂.browser)) hconnected hattached hregistered
  rw [hends]
  refine ⟨?_, hended, hgone, hclosed.trans ?_⟩
  · obtain ⟨news, hj, _⟩ := Parts.unwind ((s.act a).quit c k) [.detach t]
    refine ⟨news, ?_⟩
    show (((s.act a).quit c k).detached t).journal ++ [.finished c.id c.request _] = _
    rw [show (((s.act a).quit c k).detached t).journal = _ from hj, journal_quit, about, hact]
    rfl
  · unfold Enlisted
    rw [hregistry]
    refine forall_congr' fun u => imp_congr_right fun _ => imp_congr_right fun hu => ?_
    rw [(beside u).live, hact]
    exact Eq.congr_left (isLive_modifyTab_of_ne (s.popped rest) _ hu)

/-! ### From every state -/

/-- In every history in which the browser is kept, a tab that no call is about can be used, whatever has
happened to it, as long as the connection works. If it is not attached, and no other instance of its id is
live, an attach of it goes out, and once that is conceded the call succeeds: the tab is attached, it is the
one that is registered, and the listener is its listener. If it is attached and registered, a detach of it
goes out, and once that is conceded the call succeeds: the tab is not attached any more and its id is not
registered, and the connection is closed exactly if no other registered tab is live. -/
theorem free_tab_can_be_used (config : Config) (restartable : Bool) (rules : List (String × Json))
    (actions : List Action) (t : Instance) (id : TabId) (i : CallId) (standard : config.routes = .standard)
    (patient : 0 < config.timeout) (kept : .dropBrowser ∉ actions) :
    let s := (initial config restartable rules).run actions
    s.connection.connected = true → s.connection.sendFaults = [] → s.view.ident t = some id → s.Free t →
      s.call? i = none →
        (s.isAttached t = false → (∀ u, s.registered? id = some u → u ≠ t → s.isLive u = false) → ∀ l,
          let asked := s.run [.start i (.attach t l), .resume i]
          asked.journal = s.journal ++ [.sent (some i) (DebuggerCommand.attach.toMessage id)] ∧
            ∀ a, asked.Concedes .attach id a →
              let s' := asked.run [a, .resume i]
              s'.journal = asked.journal ++ [.finished i (.attach t l) (.handshake (.ok ()))] ∧
                s'.isAttached t = true ∧ s'.registered? id = some t ∧ s'.view.listener t = some l) ∧
        (s.isAttached t = true → s.registered? id = some t →
          let asked := s.run [.start i (.detach t), .resume i]
          asked.journal = s.journal ++ [.sent (some i) (DebuggerCommand.detach.toMessage id)] ∧
            ∀ a, asked.Concedes .detach id a →
              let s' := asked.run [a, .resume i]
              (∃ news, s'.journal = asked.journal ++ news ++
                  [.finished i (.detach t) (.handshake (.ok ()))]) ∧
                s'.isAttached t = false ∧ s'.registered? id = none ∧ (s'.connection.connected = false ↔
                  ∀ u, s.Enlisted u → u ≠ t → s.isLive u = false)) := by
  intro s connected faultless named free new
  have h : Standing config s := (standing_initial config restartable rules).run kept
  obtain ⟨tab, known, rfl⟩ := Option.map_eq_some_iff.mp named
  have hattached : s.isAttached t = tab.attached := by
    unfold isAttached
    rw [known]
    rfl
  rw [hattached]
  constructor
  · intro detached others l asked
    have hasked : Standing config asked := h.run (by simp)
    obtain ⟨hj, hlistener, c, rfl, about, way⟩ :=
      h.attach_asks patient connected faultless known free new detached others l
    refine ⟨hj, fun a conceded => ?_⟩
    obtain ⟨hfinished, ha, hr, hl⟩ := hasked.attach_ends standard way about conceded
    exact ⟨hfinished, ha, hr, hl.trans hlistener⟩
  · intro attached registered asked
    have hasked : Standing config asked := h.run (by simp)
    obtain ⟨hj, hstays, hregistry, hlive, c, rfl, about, way⟩ :=
      h.detach_asks patient connected faultless known free new attached registered
    refine ⟨hj, fun a conceded => ?_⟩
    obtain ⟨hfinished, hended, hgone, hclosed⟩ := hasked.detach_ends standard way about hstays conceded
    refine ⟨hfinished, hended, hgone, hclosed.trans ?_⟩
    unfold Enlisted
    rw [hregistry]
    exact forall_congr' fun u => imp_congr_right fun _ => imp_congr_right fun hu => by rw [hlive u hu]

/-- The server concedes an exchange with the tab of id 7. -/
theorem concedes_replyTo (s : State) (h : Handshake) : s.Concedes h 7 (.deliver (replyTo h 0)) := by
  refine ⟨replyTo h 0, ⟨h.name, some .ok, .null⟩, rfl, ?_, tab?_forTab .v8Debugger 7 _, ?_, rfl, rfl⟩
  · cases h <;> rfl
  · cases h <;> rfl

/-- An attach is given up, and a detach is refused. -/
def failing : List Action := attempting ++ [.cancel 2, .resume 3]

/-- After that the tab can be attached all the same. And where it is attached, and no other tab is, it can be
detached, and the connection closes. -/
theorem tab_used_after_failures :
    (((initial {} false obliging).run failing).view.listener 0 = some { name := "l" } ∧
      let s' := (((initial {} false obliging).run failing).run
        [.start 4 (.attach 0 { name := "m" }), .resume 4]).run [.deliver (replyTo .attach 0), .resume 4]
      s'.isAttached 0 = true ∧ s'.view.listener 0 = some { name := "m" }) ∧
    let s' := (((initial {} false obliging).run attaching).run [.start 3 (.detach 0), .resume 3]).run
      [.deliver (replyTo .detach 0), .resume 3]
    s'.isAttached 0 = false ∧ s'.connection.connected = false := by
  have others : ∀ u, ((initial {} false obliging).run failing).registered? 7 = some u → u ≠ 0 →
      ((initial {} false obliging).run failing).isLive u = false := by
    have place : ((initial {} false obliging).run failing).registered? 7 = some 0 := by decide +kernel
    intro u hu hne
    rw [place] at hu
    exact absurd (Option.some.inj hu).symm hne
  have idle : ∀ u, ((initial {} false obliging).run attaching).Enlisted u → u ≠ 0 →
      ((initial {} false obliging).run attaching).isLive u = false := by
    have dead : ∀ r ∈ ((initial {} false obliging).run attaching).registry, r.2 ≠ 0 →
        ((initial {} false obliging).run attaching).isLive r.2 = false := by decide +kernel
    rintro u ⟨id, hm⟩ hu
    exact dead (id, u) hm hu
  have hattach := free_tab_can_be_used {} false obliging failing 0 7 4 rfl (by decide)
    (by simp [failing, attempting]) (by decide +kernel) (by decide +kernel) (by decide +kernel)
    (by decide +kernel) (by decide +kernel)
  have hdetach := free_tab_can_be_used {} false obliging attaching 0 7 3 rfl (by decide)
    (by simp [attaching]) (by decide +kernel) (by decide +kernel) (by decide +kernel) (by decide +kernel)
    (by decide +kernel)
  have hat := (hattach.1 (by decide +kernel) others { name := "m" }).2 _ (concedes_replyTo _ .attach)
  have hdt := (hdetach.2 (by decide +kernel) (by decide +kernel)).2 _ (concedes_replyTo _ .detach)
  exact ⟨⟨by decide +kernel, hat.2.1, hat.2.2.2⟩, hdt.2.1, hdt.2.2.2.mpr idle⟩

end State
end RemoteDebug.Engine
