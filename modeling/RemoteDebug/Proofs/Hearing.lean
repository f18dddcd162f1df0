import RemoteDebug.Proofs.Alone

/-! How a call hears the reply to an exchange with a tab.

Only a message that the connection hands over lets a call hear a reply, and it is the reply that the
message carries: the message names the id that the tab of the call is registered under, and the reply
names the command of the call. -/
namespace RemoteDebug.Engine
open Protocol Wire

namespace State

variable {s s' s'' : State} {c x : Call} {t u : Instance} {v : DebuggerReply}

/-- No exchange with a tab comes to be answered. -/
def Untold (s s' : State) : Prop :=
  ∀ t k v, (s'.tabTable t).receiver? k = some (.answered v) →
    (s.tabTable t).receiver? k = some (.answered v)

theorem Untold.of_tabs (tabs : s'.tabs = s.tabs) : Untold s s' := by
  intro t k v hk
  unfold tabTable tab? at hk ⊢
  rw [tabs] at hk
  exact hk

theorem Untold.trans (h : Untold s s') (h' : Untold s' s'') : Untold s s'' :=
  fun t k v hk => h t k v (h' t k v hk)

theorem Untold.modifyTab (s : State) (u : Instance) (f : Tab → Tab)
    (old : ∀ tab, s.tab? u = some tab → ∀ k v, (f tab).pending.receiver? k = some (.answered v) →
      tab.pending.receiver? k = some (.answered v)) : Untold s (s.modifyTab u f) := by
  intro t k v hk
  unfold tabTable at hk ⊢
  rw [tab?_modifyTab] at hk
  split at hk
  · next hu =>
    subst hu
    cases ht : s.tab? u with
    | none =>
      rw [ht] at hk
      cases hk
    | some tab =>
      rw [ht] at hk
      exact old tab ht k v hk
  · exact hk

/-- A tab is changed, but not its table. -/
theorem Untold.tweak (s : State) (u : Instance) {f : Tab → Tab}
    (pending : ∀ x, (f x).pending = x.pending) :
    Untold s (s.modifyTab u f) :=
  .modifyTab s u f fun tab _ k v hk => by rwa [pending] at hk

theorem Untold.setTabTable (s : State) (u : Instance) (p : Pending DebuggerReply)
    (old : ∀ k v, p.receiver? k = some (.answered v) → (s.tabTable u).receiver? k = some (.answered v)) :
    Untold s (s.setTabTable u p) := by
  refine .modifyTab s u _ fun tab ht k v hk => ?_
  rw [← tabTable_of_tab? ht]
  exact old k v hk

/-! ### What a call does -/

theorem untold_register {α : Type} {p : Pending α} {command : String} {k : Ticket} {v : α}
    (h : (p.register command).2.receiver? k = some (.answered v)) :
    p.receiver? k = some (.answered v) := by
  change (p.receivers ++ [(p.nextTicket, Receiver.waiting)]).lookup k = _ at h
  rw [List.lookup_append] at h
  rcases Option.or_eq_some_iff.mp h with h | ⟨_, h⟩
  · exact h
  · rw [List.lookup_cons] at h
    split at h <;> cases h

theorem untold_leave {α : Type} {p : Pending α} {command : String} {k k' : Ticket} {v : α}
    (h : (p.leave command k').receiver? k = some (.answered v)) : p.receiver? k = some (.answered v) := by
  rw [Pending.receiver?_leave] at h
  split at h
  · cases h
  · exact h

theorem untold_failAll {α : Type} {p : Pending α} {k : Ticket} {v : α}
    (h : p.failAll.receiver? k = some (.answered v)) : p.receiver? k = some (.answered v) := by
  change (p.receivers.map fun e =>
    if e.1 ∈ p.slots.flatMap (·.2) then (e.1, Pending.orphaned e.2) else e).lookup k = _ at h
  rw [lookup_map_at p.receivers (· ∈ p.slots.flatMap (·.2)) Pending.orphaned k] at h
  split at h
  · obtain ⟨r, hr, he⟩ := Option.map_eq_some_iff.mp h
    cases r <;> cases he
    exact hr
  · exact h

theorem Untold.changeLock (s : State) (r : Request) (f : List CallId → List CallId) :
    Untold s (s.changeLock r f) := by
  cases r with
  | attach u l => exact .tweak s u fun _ => rfl
  | detach u => exact .tweak s u fun _ => rfl
  | _ => exact .of_tabs rfl

theorem Untold.join (s : State) (r : Request) : Untold s (s.join r) := by
  cases r with
  | attach u l => exact .setTabTable s u _ fun _ _ => untold_register
  | detach u => exact .setTabTable s u _ fun _ _ => untold_register
  | _ => exact .of_tabs rfl

theorem Untold.leave (s : State) (r : Request) (k : Ticket) : Untold s (s.leave r k) := by
  cases r with
  | attach u l => exact .setTabTable s u _ fun _ _ => untold_leave
  | detach u => exact .setTabTable s u _ fun _ _ => untold_leave
  | _ => exact .of_tabs rfl

theorem Untold.unmark (s : State) (r : Request) : Untold s (s.unmark r) := by
  cases r with
  | attach u l => exact .tweak s u fun _ => rfl
  | _ => exact .of_tabs rfl

theorem Untold.retire (s : State) (c : Call) : Untold s (s.retire c) :=
  .changeLock { s with calls := s.calls.filter (·.id != c.id) } c.request _

theorem Untold.quit (s : State) (c : Call) (k : Ticket) : Untold s (s.quit c k) :=
  ((Untold.leave s c.request k).trans (.unmark _ _)).trans (.retire _ c)

theorem Untold.asked (s : State) (c : Call) (m : Message) : Untold s (s.asked c m) := by
  refine (Untold.join s c.request).trans (.of_tabs ?_)
  unfold State.asked
  rw [send_eq]
  rfl

theorem Untold.create (s : State) (e : TabEntry) : Untold s (s.create e).1 := by
  intro t k v hk
  unfold tabTable at hk ⊢
  rw [tab?_create] at hk
  split at hk
  · cases hk
  · exact hk

theorem Change.untold (hc : Change s s') : Untold s s' := by
  cases hc with
  | served =>
    refine .of_tabs ?_
    unfold ensureService
    split <;> rfl
  | marked u l tab => exact .tweak s u fun _ => rfl
  | unmarked r => exact .unmark s r
  | created e vacant => exact .create s e
  | lined c mem fresh => exact .changeLock s c.request _
  | asked c m ready sent => exact .asked s c m
  | refused c m ready e unsent => exact (Untold.asked s c m).trans (.quit _ c _)
  | quit c k d mem waits => exact .quit s c k
  | retired c mem idle => exact .retire s c
  | granted c u l k d v mem about waits answered =>
    refine (Untold.quit s c k).trans ?_
    exact Untold.tweak (s.quit c k) u fun _ => rfl
  | _ => exact .of_tabs rfl

theorem ReplyFreeMove.untold (hu : ReplyFreeMove s s') : Untold s s' := by
  cases hu with
  | change hc => exact hc.untold
  | tweaked u f keeps => exact .tweak s u keeps.pending
  | _ => exact .of_tabs rfl

/-- Whoever has heard the reply to an exchange had heard it before. -/
theorem ReplyFreeMove.answered_old (hu : ReplyFreeMove s s') (hs : s.Sound) (hx : x ∈ s'.calls)
    (about : x.request.tab? = some t) (ha : s'.Answered t x v) : x ∈ s.calls ∧ s.Answered t x v := by
  obtain ⟨k, d, hp, hk⟩ := ha
  have hold := hu.untold t k v hk
  rcases hu.waits hs (waits_of_point hx hp) with hw | ⟨c, m, ready, _, _, hxc, _, hkc⟩
  · exact ⟨hw.1, k, d, hp, hold⟩
  · -- the ticket of a call that has just asked is new
    have hfree := (hs.boards c.request.desk).next_free
    rw [show (s.view.board c.request.desk).nextTicket = s.view.nextTicket c.request from rfl,
      ← nextTicket_eq, ← hkc, show c.request = x.request from by rw [hxc]; rfl, desk_of_tab? about]
      at hfree
    change (s.tabTable t).blank.receiver? k = none at hfree
    rw [Pending.receiver?_blank, hold] at hfree
    cases hfree

theorem ReplyFreeMoves.answered_old (hu : ReplyFreeMoves s s') (hs : s.Sound) (hx : x ∈ s'.calls)
    (about : x.request.tab? = some t) (ha : s'.Answered t x v) : x ∈ s.calls ∧ s.Answered t x v := by
  induction hu with
  | refl => exact ⟨hx, ha⟩
  | tail steps step ih =>
    obtain ⟨hx', ha'⟩ := step.answered_old (ReplyFreeMoves.sound steps hs) hx about ha
    exact ih hx' ha'

/-! ### Ends -/

theorem Untold.perform (s : State) (d : Duty) : Untold s (s.perform d).1 := by
  cases d with
  | detach u =>
    have hcut : Untold s (s.modifyTab u Tab.cutOff) := .modifyTab s u _ fun _ _ _ _ => untold_failAll
    unfold State.perform
    dsimp only
    split
    · rw [announceDetached_eq]
      exact hcut
    · exact hcut
  | terminate id =>
    rw [registry_terminate]
    exact .of_tabs rfl
  | closeIfIdle =>
    rw [perform_closeIfIdle]
    split
    · exact .of_tabs rfl
    · exact .of_tabs (tabs_close s)

theorem Untold.unwind (s : State) (duties : List Duty) : Untold s (s.unwind duties) :=
  unwind_induction (P := fun y _ => Untold s y) (fun y d _ hy => hy.trans (.perform y d)) s duties
    (.of_tabs rfl)

theorem Untold.fire (s : State) (k : Trigger) : Untold s (s.fire k) := by
  cases k with
  | close => exact (Untold.of_tabs (tabs_close s)).trans (.unwind _ _)
  | detached u => exact .unwind s _
  | terminated id => exact .unwind s _

theorem Untold.answered (h : Untold s s') (ha : s'.Answered t x v) : s.Answered t x v := by
  obtain ⟨k, d, hp, hk⟩ := ha
  exact ⟨k, d, hp, h t k v hk⟩

/-! ### Messages -/

theorem tabs_handshakeReply (s : State) (u : Instance) (tab : Tab) (reply : DebuggerReply) :
    (s.handshakeReply u tab reply).tabs =
      (s.setTabTable u (tab.pending.complete reply.command reply).2).tabs := by
  unfold handshakeReply
  split <;> next hp => rw [hp]; rfl

/-- A reply that reaches a tab is heard by a call that waits for the command that it names. -/
theorem Sound.answered_handshakeReply (hs : s.Sound) {tab : Tab} (ht : s.tab? u = some tab)
    (hx : x ∈ s.calls) (about : x.request.tab? = some t) {reply : DebuggerReply}
    (ha : (s.handshakeReply u tab reply).Answered t x v) :
    s.Answered t x v ∨ (t = u ∧ v = reply ∧ x.request.command = reply.command) := by
  obtain ⟨k, d, hp, hk⟩ := ha
  have htab : (s.handshakeReply u tab reply).tabTable t =
      (s.setTabTable u (tab.pending.complete reply.command reply).2).tabTable t := by
    unfold tabTable tab?
    rw [tabs_handshakeReply]
  rw [htab] at hk
  unfold tabTable State.setTabTable at hk
  rw [tab?_modifyTab] at hk
  split at hk
  · next hu =>
    subst hu
    rw [ht] at hk
    change (tab.pending.complete reply.command reply).2.receiver? k = _ at hk
    rw [← tabTable_of_tab? ht, Pending.receiver?_complete] at hk
    split at hk
    · next hhead =>
      have hwait := Pending.waiting_of_head_reached hhead
      rw [hwait] at hk
      cases hk
      refine Or.inr ⟨rfl, rfl, ?_⟩
      have hw : s.view.Waits x (.tab u) k := ⟨hx, desk_of_tab? about, d, hp⟩
      have hq : k ∈ (s.tabTable u).queue v.command :=
        (Pending.reached_suffix _ _).subset (List.mem_of_mem_head? hhead)
      refine hs.command_eq hw ?_ hq
      show (s.tabTable u).blank.receiver? k = _
      rw [Pending.receiver?_blank, hwait]
      rfl
    · exact Or.inl ⟨k, d, hp, hk⟩
  · exact Or.inl ⟨k, d, hp, hk⟩

theorem Sound.answered_tabMessage (hs : s.Sound) {m : Message} (hx : x ∈ s.calls)
    (about : x.request.tab? = some t) (ha : (s.tabMessage u m).Answered t x v) :
    s.Answered t x v ∨ (t = u ∧ DebuggerReply.ofJson m.content = .ok v ∧
      x.request.command = v.command ∧ (tabReply? m).isSome = true) := by
  unfold tabMessage at ha
  split at ha
  · exact Or.inl ha
  · next tab ht =>
    split at ha
    · exact Or.inl ha
    · next reply hj =>
      have hreply : (tabReply? m).isSome = true → (s.handshakeReply u tab reply).Answered t x v →
          s.Answered t x v ∨ (t = u ∧ DebuggerReply.ofJson m.content = .ok v ∧
            x.request.command = v.command ∧ (tabReply? m).isSome = true) := by
        intro hsome h
        refine (hs.answered_handshakeReply ht hx about h).imp_right ?_
        rintro ⟨htu, rfl, hcommand⟩
        exact ⟨htu, hj, hcommand, hsome⟩
      split at ha
      · next hk => exact hreply (by simp only [tabReply?, hj, hk]; rfl) ha
      · next hk => exact hreply (by simp only [tabReply?, hj, hk]; rfl) ha
      · exact Or.inl ha
      · rw [tell_eq] at ha
        exact Or.inl ha
      · have htold : Untold s (s.tell u .closed) := by
          rw [tell_eq]
          exact .of_tabs rfl
        exact Or.inl ((htold.trans (.fire _ (.detached u))).answered ha)
      · exact Or.inl ha

/-- A message for a tab names the id that the tab is registered under. -/
theorem recipient_eq_tab {m : Message} (h : s.recipient m = .tab t) :
    ∃ id, m.tab? = some id ∧ s.registered? id = some t := by
  unfold recipient at h
  split at h
  · cases h
  · split at h
    · cases h
    · split at h <;> cases h
    · split at h
      · cases h
      · next id hid =>
        split at h
        · cases h
        · next u hu =>
          cases h
          exact ⟨id, hid, hu⟩


theorem Sound.answered_deliver (hs : s.Sound) {m : Message} (hx : x ∈ s.calls)
    (about : x.request.tab? = some t) (ha : (s.deliver m).Answered t x v) :
    s.Answered t x v ∨ ((∃ id, m.tab? = some id ∧ s.registered? id = some t) ∧
      DebuggerReply.ofJson m.content = .ok v ∧ x.request.command = v.command) := by
  have hlogged : ∀ (y : State) n, y.tabs = s.tabs → (y.logged n).Answered t x v → s.Answered t x v := by
    intro y n tabs h
    rw [logged_eq] at h
    exact (Untold.of_tabs tabs).answered h
  unfold State.deliver at ha
  split at ha
  · unfold dispatch at ha
    split at ha
    · next p _ => exact Or.inl (hlogged { s with service := some (serviceReply p m).2 } _ rfl ha)
    · next u hu =>
      refine (hs.answered_tabMessage hx about ha).imp_right ?_
      rintro ⟨rfl, hj, hcommand, _⟩
      exact ⟨recipient_eq_tab hu, hj, hcommand⟩
    · exact Or.inl (hlogged s _ rfl ha)
  · exact Or.inl ha

/-! ### Actions -/

/-- The message that the connection hands over. -/
def incoming? (s : State) : Action → Option Message
  | .deliver m => some m
  | .receive => s.connection.inbound.head?
  | _ => none

theorem Sound.answered_act (hs : s.Sound) {a : Action}
    (handed : ∀ u m, a = .handle u m → tabReply? m = none)
    (hx : x ∈ (s.act a).calls) (about : x.request.tab? = some t) (ha : (s.act a).Answered t x v) :
    x ∈ s.calls ∧ (s.Answered t x v ∨ ∃ m, s.incoming? a = some m ∧
      (∃ id, m.tab? = some id ∧ s.registered? id = some t) ∧
      DebuggerReply.ofJson m.content = .ok v ∧ x.request.command = v.command) := by
  cases ho : s.occasion? a with
  | some o =>
    have hb := replyFree_before ho
    rw [act_of_occasion ho] at hx ha
    have hx' : x ∈ (o.before.fire o.trigger).calls := hx
    rw [calls_fire] at hx'
    obtain ⟨hm, hold⟩ := hb.answered_old hs hx' about ((Untold.fire o.before o.trigger).answered ha)
    exact ⟨hm, Or.inl hold⟩
  | none =>
    by_cases unanswered : a.isReplyFree = true
    · obtain ⟨hm, hold⟩ := (hs.replyFree_act unanswered ho).answered_old hs hx about ha
      exact ⟨hm, Or.inl hold⟩
    · have outside : a.isOutside = true := by
        cases a <;> first | rfl | exact absurd rfl unanswered
      have hcalls : (s.act a).calls = s.calls := (unmoved_act s outside).1
      rw [hcalls] at hx
      refine ⟨hx, ?_⟩
      cases a with
      | receive =>
        simp only [State.act, receive] at ha
        split at ha
        · exact Or.inl ha
        · next m rest hi =>
          have hpopped : (s.popped rest).Sound := (replyFree_popped s rest).sound hs
          refine (hpopped.answered_deliver hx about ha).imp_right fun h => ⟨m, ?_, h⟩
          simp only [incoming?, hi, List.head?_cons]
      | deliver m => exact (hs.answered_deliver hx about ha).imp_right fun h => ⟨m, rfl, h⟩
      | handle u m =>
        refine (hs.answered_tabMessage hx about ha).imp_right ?_
        rintro ⟨_, _, _, h⟩
        rw [handed u m rfl] at h
        cases h
      | separateMessage m =>
        refine Or.inl ?_
        simp only [State.act, State.separateMessage] at ha
        rw [logged_eq] at ha
        exact ha
      | dropBrowser => exact Or.inl ha
      | _ => exact absurd rfl unanswered

/-! ### Ids -/

theorem Change.ident (hc : Change s s') (hs : s.Sound) {id : TabId} (h : s.view.ident t = some id) :
    s'.view.ident t = some id := by
  have same : s'.view.ident = s.view.ident → s'.view.ident t = some id := fun he => by rw [he, h]
  cases hc with
  | served => exact same (by rw [view_ensureService])
  | marked u l tab => exact same (by rw [view_mark s u l tab]; rfl)
  | unmarked r => exact same (by rw [view_unmark])
  | created e vacant =>
    rw [view_create]
    refine (Function.update_of_ne ?_ _ _).trans h
    -- a new instance has a number that no tab had
    rintro rfl
    have hlen := isSome_ident s s.tabs.length
    rw [h, tab?_length] at hlen
    cases hlen
  | lined c mem fresh =>
    exact same (by rw [view_changeLock _ _ _ (Or.inl (hs.hasTab mem)), View.changeLock_eq])
  | asked c m ready sent => exact same (by rw [view_asked s ready m]; rfl)
  | refused c m ready e unsent => exact same (by rw [hs.view_refused ready m, View.quit_eq]; rfl)
  | quit c k d mem waits => exact same (by rw [view_quit s c k (hs.hasTab mem), View.quit_eq])
  | retired c mem idle => exact same (by rw [view_retire, View.retire_eq])
  | granted c u l k d v mem about waits answered =>
    exact same (by rw [hs.view_granted mem about, View.quit_eq]; rfl)
  | _ => exact h

theorem ident_close (s : State) : s.close.1.view.ident = s.view.ident := by
  rw [view_close]
  split <;> rfl

theorem Move.ident (hm : Move s s') (hs : s.Sound) {id : TabId} (h : s.view.ident t = some id) :
    s'.view.ident t = some id := by
  cases hm with
  | endFree hc =>
    cases hc with
    | bypassFree ho =>
      cases ho with
      | replyFree hu =>
        cases hu with
        | change hc => exact hc.ident hs h
        | tweaked u f keeps => rw [view_modifyTab_keeps s u keeps, h]
        | separated => rw [view_failSeparate]; exact h
        | _ => exact h
      | answer ha routed => rw [ha.view]; exact h
    | handed ha => rw [ha.view]; exact h
    | dropped => exact h
  | performed d =>
    cases d with
    | detach u => rw [ident_detach, h]
    | terminate id => rw [registry_terminate]; exact h
    | closeIfIdle =>
      rw [perform_closeIfIdle]
      split
      · exact h
      · rw [ident_close, h]
  | closed => rw [ident_close, h]

/-- A tab keeps its id. -/
theorem Sound.ident_act (hs : s.Sound) (a : Action) {id : TabId} (h : s.view.ident t = some id) :
    (s.act a).view.ident t = some id := by
  suffices hmoves : ∀ {s' : State}, Moves s s' → s'.view.ident t = some id from hmoves (hs.moves_act a)
  intro s' moves
  induction moves with
  | refl => exact h
  | tail steps step ih => exact step.ident (Moves.sound steps hs) ih

/-! ### A detach that fails -/

/-- A tab is not attached any more once the call that waits for its detach hears that it failed. -/
def Parted (s : State) (t : Instance) : Prop := s.view.Awaits .detach t .failed → s.isAttached t = false

/-- Whoever waits for an exchange with a tab waits for the same one. -/
theorem Sound.handshake_eq (hs : s.Sound) {h h' : Handshake} {r r' : Receiver Unit}
    (hw : s.view.Awaits h t r) (hw' : s.view.Awaits h' t r') : h = h' := by
  obtain ⟨x, k, hw, hx, _⟩ := hw
  obtain ⟨y, k', hw', hy, _⟩ := hw'
  have hsame := hs.exclusive hw.1 hw'.1 (hs.holder x _ k hw) (hs.holder y _ k' hw')
    (Request.need?_of_tab? (Request.tab?_of_handshake? hx))
    (Request.need?_of_tab? (Request.tab?_of_handshake? hy))
  rw [hsame, hy] at hx
  exact (Prod.mk.inj (Option.some.inj hx)).1.symm

theorem ReplyFreeMove.awaits_failed (hu : ReplyFreeMove s s') (hs : s.Sound) {h : Handshake}
    (hw : s'.view.Awaits h t .failed) : s.view.Awaits h t .failed := by
  obtain ⟨x, k, hw, hx, hr⟩ := hw
  have hold : (s.view.board (.tab t)).receiver? k = some .failed := by
    cases hu with
    | change hc =>
      rcases hc.receiver hs hr with hr | ⟨hr, _⟩
      · exact hr
      · cases hr
    | tweaked u f keeps =>
      rw [view_modifyTab_keeps s u keeps] at hr
      exact hr
    | separated =>
      rw [view_failSeparate, View.board_setBoard, if_neg Desk.noConfusion] at hr
      exact hr
    | _ => exact hr
  rcases hu.waits hs hw with hw | ⟨c, m, ready, _, _, _, hd, hk⟩
  · exact ⟨x, k, hw, hx, hold⟩
  · -- the ticket of a call that has just asked is new
    rw [hd, hk, nextTicket_eq] at hold
    have hfree := (hs.boards c.request.desk).next_free
    rw [show (s.view.board c.request.desk).nextTicket = s.view.nextTicket c.request from rfl, hold]
      at hfree
    cases hfree

theorem ReplyFreeMove.parted (hu : ReplyFreeMove s s') (hs : s.Sound) (h : s.Parted t) : s'.Parted t := by
  intro hw
  have hold := hu.awaits_failed hs hw
  refine Bool.eq_false_iff.mpr fun ha => ?_
  rcases hu.attached hs ha with ha | hw'
  · rw [h hold] at ha
    cases ha
  · cases hs.handshake_eq hold hw'

theorem Answer.parted {d : Desk} {command : String} (ha : Answer s d command s') (h : s.Parted t) :
    s'.Parted t := by
  intro hw
  rw [ha.attached]
  rcases ha.awaits hw with hw | ⟨hr, _⟩
  · exact h hw
  · cases hr

theorem Parted.of_calls (h : s.Parted t) (calls : s'.calls = s.calls)
    (board : s'.board (.tab t) = s.board (.tab t)) (attached : s'.isAttached t = s.isAttached t) :
    s'.Parted t := by
  rintro ⟨x, k, ⟨hx, hw⟩, hx', hr⟩
  rw [attached]
  refine h ⟨x, k, ⟨?_, hw⟩, hx', ?_⟩
  · show x ∈ s.calls
    rw [← calls]
    exact hx
  · show (s.board (.tab t)).receiver? k = _
    rw [← board]
    exact hr

theorem Parted.close (h : s.Parted t) : s.close.1.Parted t := by
  refine h.of_calls (calls_close s) ?_ (isAttached_close s t)
  show ((s.close.1).tabTable t).blank = (s.tabTable t).blank
  unfold tabTable tab?
  rw [tabs_close]

theorem Parted.perform (h : s.Parted t) (d : Duty) : (s.perform d).1.Parted t := by
  cases d with
  | detach u =>
    by_cases hu : t = u
    · intro _
      rw [attached_detach, if_pos hu]
    · refine h.of_calls (calls_perform s _) ?_ (by rw [attached_detach, if_neg hu])
      show (s.perform (.detach u)).1.view.board (.tab t) = s.view.board (.tab t)
      rw [view_detach]
      exact (View.board_setBoard _ _ _ _).trans (if_neg fun he => hu (Desk.tab.inj he))
  | terminate id =>
    rw [registry_terminate]
    exact h
  | closeIfIdle =>
    rw [perform_closeIfIdle]
    split
    · exact h
    · exact h.close

theorem Move.parted (hm : Move s s') (hs : s.Sound) (h : s.Parted t) : s'.Parted t := by
  cases hm with
  | endFree hc =>
    cases hc with
    | bypassFree ho =>
      cases ho with
      | replyFree hu => exact hu.parted hs h
      | answer ha routed => exact ha.parted h
    | handed ha => exact ha.parted h
    | dropped => exact h
  | performed d => exact h.perform d
  | closed => exact h.close

theorem Sound.parted_act (hs : s.Sound) (a : Action) (h : s.Parted t) : (s.act a).Parted t := by
  suffices hmoves : ∀ {s' : State}, Moves s s' → s'.Parted t from hmoves (hs.moves_act a)
  intro s' moves
  induction moves with
  | refl => exact h
  | tail steps step ih => exact step.parted (Moves.sound steps hs) ih

theorem parted_initial (config : Config) (restartable : Bool) (rules : List (String × Json))
    (t : Instance) : (initial config restartable rules).Parted t :=
  fun ⟨_, _, hw, _⟩ => by cases hw.1

end State
end RemoteDebug.Engine
