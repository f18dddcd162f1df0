import RemoteDebug.Proofs.Alone

/-! The listener that a tab has.

An attach that begins hands its listener to the tab and puts the tab in the registry. Nothing else does
either: whatever other calls do and whatever comes in, a tab keeps its listener, takes no place that it
does not have, and its listener is told of nothing but what the tab's debugger reports. So the listener of
a tab is that of the last attach that began. -/
namespace RemoteDebug.Engine
open Protocol Wire

/-- The listener that an entry reports to: the tab went elsewhere, or is closed. -/
def Entry.hearer? (t : Instance) : Entry → Option Listener
  | .event u (.navigated l _) | .event u (.closed l) => if u = t then some l else none
  | _ => none

/-- The listeners of a tab that something was reported to. -/
def reports (t : Instance) (es : List Entry) : List Listener := es.filterMap (Entry.hearer? t)

theorem reports_append (t : Instance) (a b : List Entry) : reports t (a ++ b) = reports t a ++ reports t b :=
  List.filterMap_append

theorem Entry.hearer?_of_isOwn {t : Instance} {e : Entry} (own : e.isOwn = true) : e.hearer? t = none := by
  unfold hearer?
  split
  · cases own
  · cases own
  · rfl

theorem Entry.hearer?_of_mayNote {t : Instance} {e : Entry} {a : Action} (past : a.reachesTabs = false)
    (may : a.mayNote e = true) : e.hearer? t = none := by
  unfold hearer?
  split
  · exact absurd may (by rw [Action.mayNote, past]; exact Bool.false_ne_true)
  · exact absurd may (by rw [Action.mayNote, past]; exact Bool.false_ne_true)
  · rfl

namespace State

variable {s s' s'' : State} {c : Call} {t u : Instance} {l : Listener}

/-! ### Aloof from a tab -/

/-- Who hears of the tab by what is newly noted. -/
def Tells (t : Instance) (s s' : State) (hearer : Option Listener) : Prop :=
  ∃ news, s'.journal = s.journal ++ news ∧ reports t news = hearer.toList

/-- Nothing new is reported to the listener of the tab. -/
def Silent (t : Instance) (s s' : State) : Prop := Tells t s s' none

theorem Silent.of_eq (h : s'.journal = s.journal) : Silent t s s' :=
  ⟨[], h.trans (List.append_nil _).symm, rfl⟩

theorem Notes.silent {kind : Entry → Bool} (h : Notes kind s s')
    (deaf : ∀ e : Entry, kind e = true → e.hearer? t = none) : Silent t s s' := by
  obtain ⟨news, hj, hn⟩ := h
  exact ⟨news, hj, List.filterMap_eq_nil_iff.mpr fun e he => deaf e (hn e he)⟩

/-- What no attach of the tab begins in: the tab keeps its listener and takes no place in the registry. -/
structure Aloof (t : Instance) (s s' : State) : Prop where
  listener : s'.view.listener t = s.view.listener t
  enlisted : t < s.tabs.length → s'.Enlisted t → s.Enlisted t
  length : s.tabs.length ≤ s'.tabs.length

theorem Aloof.trans (h : Aloof t s s') (h' : Aloof t s' s'') : Aloof t s s'' where
  listener := h'.listener.trans h.listener
  enlisted := fun known he => h.enlisted known (h'.enlisted (Nat.lt_of_lt_of_le known h.length) he)
  length := Nat.le_trans h.length h'.length

/-- Some of the registered tabs are dropped. -/
theorem Aloof.of_registry (tabs : s'.tabs = s.tabs) (registry : ∀ r ∈ s'.registry, r ∈ s.registry) :
    Aloof t s s' := by
  refine ⟨?_, fun _ ⟨id, hm⟩ => ⟨id, registry _ hm⟩, Nat.le_of_eq (congrArg List.length tabs).symm⟩
  show (s'.tab? t).bind _ = (s.tab? t).bind _
  unfold tab?
  rw [tabs]

theorem Aloof.of_eq (tabs : s'.tabs = s.tabs) (registry : s'.registry = s.registry) : Aloof t s s' :=
  .of_registry tabs fun _ hr => by rwa [registry] at hr

theorem Aloof.refl (t : Instance) (s : State) : Aloof t s s := .of_eq rfl rfl

instance (t : Instance) : Std.Refl (Aloof t) := ⟨.refl t⟩

instance (t : Instance) : IsTrans State (Aloof t) := ⟨fun _ _ _ => .trans⟩

theorem Aloof.modifyTab (s : State) (u : Instance) (f : Tab → Tab)
    (keeps : u = t → ∀ x, (f x).listener = x.listener) : Aloof t s (s.modifyTab u f) := by
  refine ⟨?_, fun _ => id, Nat.le_of_eq (List.length_modify ..).symm⟩
  rw [listener_eq, listener_eq, field_modifyTab]
  split
  · next h => simp only [keeps h]
  · rfl

theorem Inward.aloof (h : Inward s s') : Aloof t s s' where
  listener := congrFun h.listener t
  enlisted := fun _ he => by
    unfold Enlisted at he
    rwa [h.registry] at he
  length := Nat.le_of_eq h.length.symm

theorem Aloof.create (s : State) (e : TabEntry) : Aloof t s (s.create e).1 where
  listener := by
    show (s.create e).1.view.listener t = _
    rw [view_create]
    rfl
  enlisted := by
    rintro known ⟨id, hm⟩
    refine ⟨id, (mem_of_mem_assign hm).resolve_left fun h => ?_⟩
    have ht : t = s.tabs.length := (Prod.mk.inj h).2
    exact absurd ht (Nat.ne_of_lt known)
  length := by
    show s.tabs.length ≤ (s.tabs ++ [_]).length
    rw [List.length_append]
    exact Nat.le_add_right ..

/-! ### What ends -/

theorem Aloof.close (s : State) : Aloof t s s.close.1 :=
  .of_eq (tabs_close s) (registry_close s)

theorem Aloof.perform (s : State) (d : Duty) : Aloof t s (s.perform d).1 := by
  cases d with
  | detach u =>
    have hcut : Aloof t s (s.modifyTab u Tab.cutOff) := .modifyTab s u _ fun _ _ => rfl
    unfold State.perform
    dsimp only
    split
    · rw [announceDetached_eq]
      exact hcut.trans (.of_eq rfl rfl)
    · exact hcut
  | terminate id =>
    rw [registry_terminate]
    exact .of_registry rfl fun _ h => List.mem_of_mem_filter h
  | closeIfIdle =>
    rw [perform_closeIfIdle]
    split
    · exact .refl t s
    · exact .close s

theorem Aloof.unwind (s : State) (duties : List Duty) : Aloof t s (s.unwind duties) :=
  unwind_of_duties Aloof.perform s duties

/-! ### What a call does -/

theorem Aloof.asked (s : State) (c : Call) (m : Message) : Aloof t s (s.asked c m) := by
  unfold State.asked
  rw [send_eq]
  exact (Inward.enter s c).aloof.trans (.of_eq rfl rfl)

theorem Deed.aloof (h : Deed c s s') : Aloof t s s' := by
  cases h with
  | concluded h =>
    cases h with
    | created about e vacant => exact .create s e
    | _ => exact .of_eq rfl rfl
  | queued => exact (Inward.setPoint s _ _).aloof
  | unmarked => exact (Inward.unmark s _).aloof
  | quit k => exact (Inward.quit s c k).aloof
  | retired => exact (Inward.retire s c).aloof
  | attached u l about =>
    have hset : Aloof t s (s.modifyTab u fun tab => { tab with attached := true }) :=
      .modifyTab s u _ fun _ _ => rfl
    exact hset.trans (.of_eq rfl rfl)
  | detached u about => exact (Aloof.unwind s _).trans (.of_eq rfl rfl)
  | unsent m e unsent => exact .asked s c m

theorem Deeds.aloof (h : Deeds c s s') : Aloof t s s' := by
  have hdeed : Deed c ≤ Aloof t := fun _ _ => Deed.aloof
  exact Relation.reflTransGen_le_of_le hdeed _ _ h

/-- Another instance takes a place. -/
theorem Aloof.enroll (s : State) (id : TabId) (h : u ≠ t) : Aloof t s (s.enroll id u) := by
  refine ⟨rfl, fun _ ⟨k, hm⟩ => ⟨k, (mem_of_mem_assign hm).resolve_left ?_⟩, Nat.le_refl _⟩
  rintro ⟨⟩
  exact h rfl

theorem Preparation.aloof (h : Preparation c s s') (other : ¬ c.request.Seeks t) : Aloof t s s' := by
  have hne : ∀ {u l}, c.request = .attach u l → u ≠ t := by
    rintro u l about rfl
    exact other (by rw [about]; rfl)
  cases h with
  | served free =>
    unfold State.ensureService
    split <;> exact .of_eq rfl rfl
  | started about service => exact .of_eq rfl rfl
  | purged about => exact .of_registry rfl fun _ h => List.mem_of_mem_filter h
  | marked u l about => exact .modifyTab s u _ fun hu => absurd hu (hne about)
  | enrolled u l tab about known vacant => exact .enroll s _ (hne about)

/-- Once it has its place, the tab of an attach is left alone. -/
theorem Aloof.beginAttach (s : State) (c : Call) (u : Instance) (l : Listener) :
    Aloof t (s.placed u l) (s.beginAttach c u l) := by
  rcases beginAttach_asks_or_leaves s c u l with ⟨_, _, _, h⟩ | ⟨e, h⟩ <;> rw [h]
  · rcases deeds_ask (s.placed u l) c (DebuggerCommand.attach.toMessage _) with deeds | ⟨_, deeds⟩
    · exact Deeds.aloof deeds
    · exact (Aloof.asked _ c _).trans (Deeds.aloof deeds)
  · exact (Deed.unmarked.aloof).trans (Deeds.aloof (deeds_finish _ (.failed c e)))

/-- A call that does not begin, or is no attach of the tab, leaves it alone. -/
theorem Aloof.resume (s : State) (c : Call) (other : ¬ (c.request.Seeks t ∧ s.Admits c)) :
    Aloof t s (s.resume c) := by
  have hlined : Aloof t s (s.lined c) := (Inward.lined s c).aloof
  by_cases admits : s.Admits c
  · exact resume_of_stages hlined (fun _ _ h => h.aloof fun seeks => other ⟨seeks, admits⟩)
      (fun x m => .asked x c m) fun _ _ => Deed.aloof
  · exact hlined.trans (Deeds.aloof (deeds_of_not_admits admits))

/-! ### What comes in -/

/-- The message has the debugger of a tab report something to the tab's listener. -/
def isReport (m : Message) : Bool :=
  match DebuggerReply.ofJson m.content with
  | .error _ => false
  | .ok reply => reply.kind == .navigated || reply.kind == .closed

theorem reports_told (s : State) (u : Instance) {what : Listener → TabEvent}
    (reports_to : ∀ l, Entry.hearer? t (.event u (what l)) = if u = t then some l else none) :
    reports t (s.told u what) = (if u = t then s.view.listener t else none).toList := by
  have hl : s.view.listener u = (s.tab? u).bind (·.listener) := rfl
  unfold told
  rw [← hl]
  by_cases hu : u = t
  · subst hu
    cases s.view.listener u <;> simp [reports, reports_to]
  · cases s.view.listener u <;> simp [reports, reports_to, hu]

/-- Who hears of a tab by a message for another tab or for itself. -/
def hearer? (s : State) (t u : Instance) (m : Message) : Option Listener :=
  if u = t ∧ isReport m = true then s.view.listener t else none

theorem hearer?_of_report {u : Instance} {m : Message} (h : isReport m = true) :
    s.hearer? t u m = if u = t then s.view.listener t else none := by
  unfold hearer?
  rw [h]
  simp only [and_true]

theorem hearer?_of_other {u : Instance} {m : Message} (h : isReport m = false) : s.hearer? t u m = none := by
  refine if_neg fun hm => ?_
  rw [h] at hm
  cases hm.2

theorem hearer?_of_unknown {u : Instance} {m : Message} (h : s.tab? u = none) : s.hearer? t u m = none := by
  unfold hearer?
  split
  · next hm =>
    have hl : s.view.listener t = (s.tab? t).bind (·.listener) := rfl
    rw [hl, ← hm.1, h]
    rfl
  · rfl

theorem tabMessage_hearer (s : State) (t u : Instance) (m : Message) :
    Tells t s (s.tabMessage u m) (s.hearer? t u m) := by
  have silent : ∀ {s'}, Silent t s s' → s.hearer? t u m = none → Tells t s s' (s.hearer? t u m) := by
    intro s' h hm
    rw [hm]
    exact h
  unfold tabMessage
  cases hu : s.tab? u with
  | none => exact silent (.of_eq rfl) (hearer?_of_unknown hu)
  | some tab =>
    dsimp only
    cases hreply : DebuggerReply.ofJson m.content with
    | error cause => exact silent ⟨[_], rfl, rfl⟩ (hearer?_of_other (by unfold isReport; rw [hreply]))
    | ok reply =>
      have hreport : isReport m = (reply.kind == .navigated || reply.kind == .closed) := by
        unfold isReport
        rw [hreply]
      have hanswer : Silent t s (s.handshakeReply u tab reply) := by
        unfold State.handshakeReply
        split
        · exact .of_eq rfl
        · exact ⟨[_], rfl, rfl⟩
      dsimp only
      cases hk : reply.kind with
      | attach | detach => exact silent hanswer (hearer?_of_other (by rw [hreport, hk]; rfl))
      | request => exact silent ⟨[_], rfl, rfl⟩ (hearer?_of_other (by rw [hreport, hk]; rfl))
      | other => exact silent (.of_eq rfl) (hearer?_of_other (by rw [hreport, hk]; rfl))
      | navigated =>
        rw [hearer?_of_report (by rw [hreport, hk]; rfl)]
        dsimp only
        rw [tell_eq]
        exact ⟨_, rfl, reports_told s u fun _ => rfl⟩
      | closed =>
        rw [hearer?_of_report (by rw [hreport, hk]; rfl)]
        dsimp only
        rw [tell_eq]
        have hdetached := (Parts.unwind (s.note (s.told u .closed)) [.detach u]).own
        obtain ⟨news, hj, hn⟩ := Notes.silent hdetached fun _ => Entry.hearer?_of_isOwn (t := t)
        refine ⟨s.told u .closed ++ news, ?_, ?_⟩
        · rw [← List.append_assoc]
          exact hj
        · rw [reports_append, hn, Option.toList_none, List.append_nil]
          exact reports_told s u fun _ => rfl

/-- The tab that a message is handed to through the connection. -/
def addressed? (s : State) (m : Message) : Option Instance :=
  match s.recipient m with
  | .tab u => if s.listens then some u else none
  | _ => none

/-- Who hears of a tab by a message that the connection hands over. -/
def audience? (s : State) (t : Instance) (m : Message) : Option Listener :=
  (s.addressed? m).bind fun u => s.hearer? t u m

theorem audience?_eq_some {m : Message} : s.audience? t m = some l ↔
    s.addressed? m = some t ∧ isReport m = true ∧ s.view.listener t = some l := by
  unfold audience? hearer?
  rw [Option.bind_eq_some_iff]
  constructor
  · rintro ⟨u, haddressed, hl⟩
    split at hl
    · next h => exact ⟨h.1 ▸ haddressed, h.2, hl⟩
    · cases hl
  · rintro ⟨haddressed, hreport, hl⟩
    exact ⟨t, haddressed, (if_pos ⟨rfl, hreport⟩).trans hl⟩

theorem deliver_hearer (s : State) (t : Instance) (m : Message) :
    Tells t s (s.deliver m) (s.audience? t m) := by
  unfold audience? addressed? deliver dispatch
  by_cases hl : s.listens = true
  · rw [if_pos hl]
    cases s.recipient m with
    | service p =>
      show Silent t s (({ s with service := some (serviceReply p m).2 } : State).logged (serviceReply p m).1)
      rw [logged_eq]
      cases (serviceReply p m).1 <;> exact ⟨_, rfl, rfl⟩
    | nobody n =>
      show Silent t s (s.logged n)
      rw [logged_eq]
      cases n <;> exact ⟨_, rfl, rfl⟩
    | tab u =>
      dsimp only
      rw [if_pos hl]
      exact tabMessage_hearer s t u m
  · have haddressed : (match s.recipient m with
        | .tab u => if s.listens then some u else none
        | _ => none) = none := by
      cases s.recipient m with
      | tab u => exact if_neg hl
      | _ => rfl
    rw [if_neg hl, haddressed]
    exact Silent.of_eq rfl

/-! ### What an action does -/

/-- An attach of the tab begins, with the listener that it brings. -/
def Begins (s : State) (t : Instance) (l : Listener) (a : Action) : Prop :=
  ∃ c ∈ s.calls, c.request = .attach t l ∧ s.Admits c ∧ a = .resume c.id

/-- The message that the connection hands to its listener. -/
def arriving? (s : State) : Action → Option Message
  | .deliver m => some m
  | .receive => s.connection.inbound.head?
  | _ => none

/-- Who hears of a tab by an action: its listener, if its debugger reports something. -/
theorem act_hearer (s : State) (t : Instance) {a : Action} (through : ∀ u m, a ≠ .handle u m) :
    Tells t s (s.act a) ((s.arriving? a).bind (s.audience? t)) := by
  cases a with
  | handle u m => exact absurd rfl (through u m)
  | deliver m => exact deliver_hearer s t m
  | receive =>
    simp only [State.act, State.receive, arriving?]
    cases s.connection.inbound with
    | nil => exact Silent.of_eq rfl
    | cons m rest => exact deliver_hearer (s.popped rest) t m
  | _ => exact Notes.silent (notes_act s _) fun _ => Entry.hearer?_of_mayNote rfl

theorem Incident.aloof {a : Action} (h : Incident a s s') : Aloof t s s' := by
  cases h with
  | tweaked u f keeps attaching => exact .modifyTab s u f fun _ => keeps.listener
  | answered h heard routed =>
    cases h with
    | tab u known command v => exact .modifyTab s u _ fun _ _ => rfl
    | _ => exact .of_eq rfl rfl
  | _ => exact .of_eq rfl rfl

/-- Unless an attach of the tab begins, an action leaves alone what the tab has. -/
theorem Aloof.act {a : Action} (others : ∀ l, ¬ s.Begins t l a) : Aloof t s (s.act a) := by
  cases a with
  | start id r =>
    simp only [State.act, State.start]
    split <;> exact .of_eq rfl rfl
  | resume id =>
    simp only [State.act]
    split
    · next c hid =>
      obtain ⟨hc, rfl⟩ := call_of_call? hid
      refine .resume s c fun h => ?_
      obtain ⟨l, hr⟩ := h.1.eq
      exact others l ⟨c, hc, hr, h.2, rfl⟩
    · exact .refl t s
  | cancel id =>
    simp only [State.act]
    cases hid : s.call? id with
    | none =>
      simp only [State.cancel, hid]
      exact .refl t s
    | some c =>
      obtain ⟨_, rfl⟩ := call_of_call? hid
      exact Deeds.aloof (deeds_cancel hid)
  | _ => exact act_of_incidents rfl (fun _ _ => Incident.aloof) Aloof.perform Aloof.close s

/-- The tab of a call is there. -/
theorem Sound.tab_of_mem (hs : s.Sound) (hc : c ∈ s.calls) (about : c.request.tab? = some t) :
    t < s.tabs.length := by
  obtain ⟨tab, ht⟩ := Option.isSome_iff_exists.mp (hs.hasTab hc t about)
  exact (List.getElem?_eq_some_iff.mp ht).1

theorem listener_mark (known : t < s.tabs.length) : (s.mark t l).view.listener t = some l := by
  unfold mark
  rw [listener_eq, field_modifyTab, if_pos rfl]
  unfold tab?
  rw [List.getElem?_eq_getElem known]
  rfl

theorem Sound.listener_begins (hs : s.Sound) {a : Action} (h : s.Begins t l a) :
    (s.act a).view.listener t = some l := by
  obtain ⟨c, hc, hr, admits, rfl⟩ := h
  have hact : s.act (.resume c.id) = (s.lined c).beginAttach c t l := by
    simp only [State.act, hs.call?_eq hc]
    rw [resume_of_admits admits]
    unfold State.begin
    rw [hr]
  rw [hact, (Aloof.beginAttach (s.lined c) c t l).listener]
  have hmark : ((s.lined c).placed t l).view.listener t = ((s.lined c).mark t l).view.listener t := by
    show (((s.lined c).placed t l).tab? t).bind _ = (((s.lined c).mark t l).tab? t).bind _
    unfold tab?
    rw [tabs_placed]
  rw [hmark]
  exact listener_mark ((Inward.lined s c).length.symm ▸ hs.tab_of_mem hc (by rw [hr]; rfl))

/-- After an action a tab has a listener exactly if the action begins an attach that brings it, or the tab
had it before and the action begins no attach. -/
theorem Sound.listener_act (hs : s.Sound) (a : Action) : (s.act a).view.listener t = some l ↔
    s.Begins t l a ∨ (s.view.listener t = some l ∧ ∀ l', ¬ s.Begins t l' a) := by
  by_cases begins : ∃ l', s.Begins t l' a
  · obtain ⟨l', h'⟩ := begins
    rw [hs.listener_begins h', or_iff_left fun h => h.2 l' h']
    refine ⟨fun h => Option.some.inj h ▸ h', ?_⟩
    intro h
    rw [← hs.listener_begins h', hs.listener_begins h]
  · have others : ∀ l', ¬ s.Begins t l' a := fun l' h => begins ⟨l', h⟩
    rw [(Aloof.act others).listener, or_iff_right (others l), and_iff_left others]

end State
end RemoteDebug.Engine
