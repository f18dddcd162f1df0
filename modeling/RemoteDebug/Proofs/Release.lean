import RemoteDebug.Proofs.Alone
import RemoteDebug.Proofs.Correlation
import RemoteDebug.Proofs.Idleness
import RemoteDebug.Proofs.Listening

/-! Whom the end of the connection releases.

When the connection closes, the calls to the session's service handler fail, and so do those that wait
for an exchange with a registered tab. The close finds the tabs by the registry: a tab that lost its
place while its attach was under way, or that never had one, is not found, and who waits there
goes on waiting until the time is over. -/
namespace RemoteDebug.Engine
open Protocol Wire

namespace State

variable {s s' x : State} {c : Call} {t : Instance} {duties rest : List Duty}

/-! ### Exchanges with registered tabs -/

/-- Whoever waits for an exchange with an instance that is registered waits on an open connection, or
is about to be told otherwise. -/
def Backed (t : Instance) (s : State) (duties : List Duty) : Prop :=
  ∀ h, s.view.Awaits h t .waiting → s.Enlisted t → s.connection.connected = true ∨ .detach t ∈ duties

theorem ReplyFreeMove.backed (hu : ReplyFreeMove s s') (hs : s.Sound) (hb : Backed t s duties) : Backed t s' duties := by
  intro h hw he
  have lasts := (hu.linked hs).lasts
  rcases hu.awaits hs hw with hold | ⟨_, hc⟩ | hr
  · rcases hu.unawaited hs he with he | hn
    · exact (hb h hold he).imp_left lasts
    · exact absurd hw (hn h _)
  · exact Or.inl hc
  · cases hr

theorem ReplyFreeMoves.backed (hu : ReplyFreeMoves s s') (hs : s.Sound) (hb : Backed t s duties) : Backed t s' duties := by
  induction hu with
  | refl => exact hb
  | tail steps step ih => exact step.backed (ReplyFreeMoves.sound steps hs) ih

theorem Answer.backed {d : Desk} {command : String} (ha : Answer s d command s')
    (hb : Backed t s duties) : Backed t s' duties := by
  intro h hw he
  have he' : s.Enlisted t := by
    unfold Enlisted at he ⊢
    rwa [ha.registry] at he
  rcases ha.awaits hw with hold | ⟨hr, _⟩
  · exact (hb h hold he').imp_left ha.linked.lasts
  · cases hr

theorem EndFreeMove.backed (hc : EndFreeMove s s') (hs : s.Sound) (hb : Backed t s duties) : Backed t s' duties := by
  cases hc with
  | bypassFree ho =>
    cases ho with
    | replyFree hu => exact hu.backed hs hb
    | answer ha routed => exact ha.backed hb
  | handed ha => exact ha.backed hb
  | dropped => exact hb

theorem EndFreeMoves.backed (hc : EndFreeMoves s s') (hs : s.Sound) (hb : Backed t s duties) : Backed t s' duties := by
  induction hc with
  | refl => exact hb
  | tail steps step ih => exact step.backed (EndFreeMoves.sound steps hs) ih

theorem Backed.close (hb : Backed t s rest) (ha : s.Attended) (alive : s.alive = true) :
    Backed t s.close.1 (s.close.2 ++ rest) := by
  intro h hw he
  cases hc : s.connection.connected with
  | false =>
    rw [close_of_disconnected hc] at hw he ⊢
    exact hb h hw he
  | true =>
    refine Or.inr (List.mem_append_left _ ?_)
    have hduties : s.close.2 = s.registry.map (.detach ·.2) := by
      unfold State.close
      rw [if_pos hc, if_pos (ha.listens hc alive)]
    obtain ⟨id, hm⟩ := he
    rw [registry_close] at hm
    rw [hduties]
    exact List.mem_map.mpr ⟨(id, t), hm, rfl⟩

theorem Backed.perform {d : Duty} (hb : Backed t s (d :: rest)) (hs : s.Sound) (ha : s.Attended)
    (alive : s.alive = true) : Backed t (s.perform d).1 ((s.perform d).2 ++ rest) := by
  cases d with
  | detach u =>
    intro h hw he
    rcases hs.awaits_perform (.detach u) hw with ⟨hold, spared⟩ | hr
    · rw [connection_detach]
      have he' : s.Enlisted t := by
        unfold Enlisted at he ⊢
        rwa [registry_detach] at he
      refine (hb h hold he').imp_right fun hm => List.mem_append_right _ (mem_of_ne_cons hm ?_)
      rintro hd
      exact spared hd.symm rfl
    · cases hr
  | terminate id =>
    intro h hw he
    rw [registry_terminate] at hw he ⊢
    obtain ⟨k, hm⟩ := he
    exact (hb h hw ⟨k, (List.mem_filter.mp hm).1⟩).imp_right fun hm =>
      List.mem_append_right _ (mem_of_ne_cons hm Duty.noConfusion)
  | closeIfIdle =>
    have hrest : Backed t s rest := fun h hw he =>
      (hb h hw he).imp_right fun hm => mem_of_ne_cons hm Duty.noConfusion
    rw [perform_closeIfIdle]
    split
    · exact hrest
    · exact hrest.close ha alive

theorem Backed.unwind (hb : Backed t s duties) (hs : s.Sound) (ha : s.Attended) (alive : s.alive = true) :
    Backed t (s.unwind duties) [] :=
  ha.unwind_induction hs alive (fun _ _ _ hx hax live h => h.perform hx hax live) hb

theorem Backed.fire (hb : Backed t s []) (hs : s.Sound) (ha : s.Attended) (browser : s.browser = true)
    (k : Trigger) : Backed t (s.fire k) [] := by
  have alive := alive_of_browser browser
  have more : ∀ d, Backed t s [d] := fun d h hw he =>
    (hb h hw he).imp_right fun hm => absurd hm List.not_mem_nil
  cases k with
  | close =>
    have hclose := hb.close ha alive
    rw [List.append_nil] at hclose
    exact hclose.unwind hs.close (ha.close hs) (alive_of_browser ((browser_close s).trans browser))
  | detached u => exact (more _).unwind hs ha alive
  | terminated id => exact (more _).unwind hs ha alive

theorem Backed.act (hb : Backed t s []) (hs : s.Sound) (ha : s.Attended) (browser : s.browser = true)
    (a : Action) : Backed t (s.act a) [] := by
  cases ho : s.occasion? a with
  | none => exact (hs.endFree_act ho).backed hs hb
  | some o =>
    have hu := replyFree_before ho
    rw [act_of_occasion ho]
    exact (hu.backed hs hb).fire (hu.sound hs) (hu.bypassFree.endFree.moves.attended hs ha)
      ((browser_before ho hs).trans browser) o.trigger

theorem Backed.run (hb : Backed t s []) (hs : s.Sound) (ha : s.Attended) (browser : s.browser = true)
    {actions : List Action} (kept : .dropBrowser ∉ actions) : Backed t (s.run actions) [] := by
  induction actions generalizing s with
  | nil => exact hb
  | cons a rest ih =>
    rw [List.mem_cons, not_or] at kept
    exact ih (hb.act hs ha browser a) (hs.act a) (ha.act hs a)
      ((hs.browser_act (Ne.symm kept.1)).trans browser) kept.2

theorem backed_initial (config : Config) (restartable : Bool) (rules : List (String × Json))
    (t : Instance) : Backed t (initial config restartable rules) [] :=
  fun _ ⟨_, _, hw, _⟩ => by cases hw.1

/-! ### Calls -/

/-- The call waits for its reply and has heard nothing. -/
def Outstanding (s : State) (c : Call) : Prop :=
  ∃ k, s.view.Waits c c.request.desk k ∧
    (s.view.board c.request.desk).receiver? k = some .waiting

/-- What the call waits for is not found when the connection closes: it waits at the separate
handler, or for a tab that is not registered. -/
def Unreached (s : State) (c : Call) : Prop :=
  c.request.desk = .separate ∨ ∃ t, c.request.tab? = some t ∧ ¬ s.Enlisted t

theorem handshake_of_tab? {r : Request} (ht : r.tab? = some t) : ∃ h, r.handshake? = some (h, t) := by
  cases r with
  | attach u l => exact ⟨.attach, by rw [Option.some.inj ht]; rfl⟩
  | detach u => exact ⟨.detach, by rw [Option.some.inj ht]; rfl⟩
  | _ => cases ht

/-- Without a connection, only calls wait that its end did not find. -/
theorem Outstanding.unreached (h : s.Outstanding c) (ha : s.Attended) (hb : ∀ t, Backed t s [])
    (closed : s.connection.connected = false) : s.Unreached c := by
  obtain ⟨k, hw, hr⟩ := h
  have disconnected : s.connection.connected ≠ true := by rw [closed]; exact Bool.false_ne_true
  cases ht : c.request.tab? with
  | some t =>
    refine Or.inr ⟨t, ht, fun he => ?_⟩
    obtain ⟨e, hx⟩ := handshake_of_tab? ht
    rw [desk_of_tab? ht] at hw hr
    rcases hb t e ⟨c, k, hw, hx, hr⟩ he with hc | hm
    · exact disconnected hc
    · cases hm
  | none =>
    refine Or.inl ?_
    cases hd : c.request.desk with
    | separate => rfl
    | session =>
      rw [hd] at hr
      exact absurd (ha.lively k hr) disconnected
    | tab t =>
      cases hq : c.request with
      | attach u l => rw [hq] at ht; cases ht
      | detach u => rw [hq] at ht; cases ht
      | _ => rw [hq] at hd; cases hd

/-- How a call ends whose wait the end of the connection has cut off. -/
def severed : Request → Result
  | .connect | .ping | .service .ping _ => .done (.error (.connection .channelClosed))
  | .tabs => .tabs (.error (.connection .channelClosed))
  | .attach .. | .detach _ => .handshake (.error (.transport .channelClosed))
  | .service .version _ => .version (.error .channelClosed)
  | .service .listTabs _ => .entries (.error (.connection .channelClosed))

theorem serviceEnds_severed (s : State) (ht : c.request.tab? = none) :
    s.serviceEnds c (.error .channelClosed) = s.report c (severed c.request) := by
  unfold State.serviceEnds
  cases hr : c.request with
  | attach t l => rw [hr] at ht; cases ht
  | detach t => rw [hr] at ht; cases ht
  | service command timeout => cases command <;> rfl
  | _ => rfl

theorem waitEnd?_of_failed {α : Type} {p : Pending α} {r : Request} {k : Ticket} {d : Nat}
    (hr : p.blank.receiver? k = some .failed) : s.waitEnd? p r k d = some (.error .channelClosed) := by
  rw [Pending.receiver?_blank] at hr
  obtain ⟨v, hv, hblank⟩ := Option.map_eq_some_iff.mp hr
  cases v with
  | failed =>
    unfold State.waitEnd?
    rw [hv]
  | waiting => cases hblank
  | answered _ => cases hblank

/-- A call whose wait was cut off ends at once, without its time being over. -/
theorem Sound.act_of_failed (hs : s.Sound) {k : Ticket} (hw : s.view.Waits c c.request.desk k)
    (hr : (s.view.board c.request.desk).receiver? k = some .failed) :
    (s.act (.resume c.id)).journal = s.journal ++ [.finished c.id c.request (severed c.request)] := by
  obtain ⟨hc, _, d, hp⟩ := hw
  have hend : (s.act (.resume c.id)).journal =
      ((s.quit c k).report c (severed c.request)).journal := by
    simp only [State.act, hs.call?_eq hc, resume, hp]
    cases ht : c.request.tab? with
    | some t =>
      rw [desk_of_tab? ht] at hr
      rw [poll_of_tab ht, waitEnd?_of_failed (p := s.tabTable t) hr, Option.map_some, Option.getD_some,
        handshakeEnds_error]
      cases hq : c.request with
      | attach u l => rfl
      | detach u => rfl
      | _ => rw [hq] at ht; cases ht
    | none =>
      have hboard : s.view.board c.request.desk = (s.serviceTable c.request).blank := by
        cases hq : c.request with
        | attach u l => rw [hq] at ht; cases ht
        | detach u => rw [hq] at ht; cases ht
        | _ => rfl
      rw [hboard] at hr
      rw [poll_of_free ht, waitEnd?_of_failed hr, Option.map_some, Option.getD_some, serviceEnds_severed _ ht]
  rw [hend]
  show (s.quit c k).journal ++ _ = _
  rw [journal_quit]

/-- When something ends, a call that has heard nothing goes on waiting, or its wait is cut off. -/
theorem Outstanding.act_of_occasion (h : s.Outstanding c) (hs : s.Sound) {a : Action} {o : Occasion}
    (ho : s.occasion? a = some o) :
    (s.act a).Outstanding c ∨ ∃ k, (s.act a).view.Waits c c.request.desk k ∧
      ((s.act a).view.board c.request.desk).receiver? k = some .failed := by
  obtain ⟨k, hw, hr⟩ := h
  -- the call stays: only the detach that was granted goes on by an end, and it has heard its reply
  have resumed : a ≠ .resume c.id := by
    rintro rfl
    simp only [occasion?, hs.call?_eq hw.1, Option.bind_some] at ho
    obtain ⟨k', d', t, hp, hous, _⟩ := before_of_ousting ho
    obtain ⟨about, reply, heard, _⟩ := ousts_eq_some hous
    obtain ⟨_, _, d, hpoint⟩ := hw
    rw [hp] at hpoint
    cases hpoint
    rw [about] at hr
    change (s.tabTable t).blank.receiver? k = _ at hr
    rw [Pending.receiver?_blank, heard] at hr
    cases hr
  have cancelled : a ≠ .cancel c.id := by
    rintro rfl
    cases ho
  have hw' : (s.act a).view.Waits c c.request.desk k := ⟨mem_act_of_other hw.1 resumed cancelled, hw.2⟩
  obtain ⟨r, hr', _⟩ := (hs.act a).seat c _ k hw'
  cases r with
  | waiting => exact Or.inl ⟨k, hw', hr'⟩
  | failed => exact Or.inr ⟨k, hw', hr'⟩
  | answered v =>
    have hold := hs.unheard_of_occasion ho _ k hr'
    change (s.view.board c.request.desk).receiver? k = _ at hold
    rw [hr] at hold
    cases hold

/-- In every history in which the owner keeps the browser, a call that waits without a connection and
has heard nothing waits at the separate handler, or for a tab that is not registered. When the
connection closes, every other call that had heard nothing has its wait cut off: it ends when it next
goes on, because the connection closed. -/
theorem closing_releases_calls_it_finds (config : Config) (restartable : Bool)
    (rules : List (String × Json)) (actions : List Action) (kept : .dropBrowser ∉ actions) :
    let s := (initial config restartable rules).run actions
    (s.connection.connected = false → ∀ c, s.Outstanding c → s.Unreached c) ∧
      ∀ a, s.connection.connected = true → (s.act a).connection.connected = false →
        ∀ c, s.Outstanding c →
          ((s.act a).Outstanding c ∧ (s.act a).Unreached c) ∨
            ((s.act a).act (.resume c.id)).journal =
              (s.act a).journal ++ [.finished c.id c.request (severed c.request)] := by
  intro s
  have h₀ : (initial config restartable rules).Sound := sound_initial config restartable rules
  have hs : s.Sound := h₀.run actions
  have ha₀ := attended_initial config restartable rules
  have ha : s.Attended := ha₀.run h₀ actions
  have browser : s.browser = true := h₀.browser_run kept
  have hb : ∀ t, Backed t s [] := fun t =>
    (backed_initial config restartable rules t).run h₀ ha₀ rfl kept
  refine ⟨fun closed c hc => hc.unreached ha hb closed, fun a connected closed c hc => ?_⟩
  cases ho : s.occasion? a with
  | none =>
    have lasts := (hs.endFree_act ho).lasts hs connected
    rw [closed] at lasts
    cases lasts
  | some o =>
    rcases hc.act_of_occasion hs ho with hc' | ⟨k, hw, hr⟩
    · exact Or.inl ⟨hc', hc'.unreached (ha.act hs a) (fun t => (hb t).act hs ha browser a) closed⟩
    · exact Or.inr ((hs.act a).act_of_failed hw hr)

/-- A history in which the attach of a tab is not answered. -/
def unanswered : List Action :=
  [.start 0 .connect, .resume 0, .receive, .resume 0, .start 1 .tabs, .resume 1, .receive, .resume 1,
    .answerWith "attach" .null, .start 2 (.attach 0 { name := "l" }), .resume 2]

def unansweredCall : Call := ⟨2, .attach 0 { name := "l" }, .awaiting 1 3000⟩

theorem outstanding_unanswered : ((initial {} false obliging).run unanswered).Outstanding unansweredCall :=
  ⟨1, ⟨by decide +kernel, rfl, 3000, rfl⟩, (Pending.isLive_iff _ _).mp (by decide +kernel)⟩

/-- The connection closes while the attach is under way: the call ends at once. -/
theorem close_releases_attach :
    let s := (initial {} false obliging).run unanswered
    (Action.dropBrowser ∉ unanswered ∧ s.connection.connected = true ∧ s.Outstanding unansweredCall) ∧
      (s.act .close).connection.connected = false ∧
      ((s.act .close).act (.resume 2)).journal = (s.act .close).journal ++
        [.finished 2 (.attach 0 { name := "l" }) (.handshake (.error (.transport .channelClosed)))] := by
  intro s
  have kept : Action.dropBrowser ∉ unanswered := by simp [unanswered]
  have connected : s.connection.connected = true := by decide +kernel
  have closed : (s.act .close).connection.connected = false := by decide +kernel
  refine ⟨⟨kept, connected, outstanding_unanswered⟩, closed, ?_⟩
  have released := (closing_releases_calls_it_finds {} false obliging unanswered kept).2 .close connected
    closed unansweredCall outstanding_unanswered
  refine released.resolve_left ?_
  rintro ⟨⟨k, ⟨_, _, d, hp⟩, hr⟩, _⟩
  cases hp
  have live : ((s.act .close).view.board (.tab 0)).isLive 1 = true := (Pending.isLive_iff _ _).mpr hr
  exact absurd live (by decide +kernel)

/-- The session is told that the tab is finished while the attach is under way: the connection closes,
since no tab is left, and nothing more happens, but the call waits on. -/
theorem attach_outlives_connection :
    let s := (initial {} false obliging).run (unanswered ++ [.terminate 7])
    (Action.dropBrowser ∉ unanswered ++ [.terminate 7]) ∧ s.Settled ∧ s.connection.connected = false ∧
      s.Outstanding unansweredCall ∧
      (s.act (.advance 2999)).Settled ∧ (s.act (.advance 2999)).Outstanding unansweredCall := by
  intro s
  exact ⟨by simp [unanswered], by decide +kernel, by decide +kernel,
    ⟨1, ⟨by decide +kernel, rfl, 3000, rfl⟩, (Pending.isLive_iff _ _).mp (by decide +kernel)⟩,
    by decide +kernel,
    ⟨1, ⟨by decide +kernel, rfl, 3000, rfl⟩, (Pending.isLive_iff _ _).mp (by decide +kernel)⟩⟩

end State
end RemoteDebug.Engine
