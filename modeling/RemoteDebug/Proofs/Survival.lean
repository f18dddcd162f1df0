import RemoteDebug.Proofs.Negotiation
import RemoteDebug.Proofs.Shutdown

/-! Tabs whose session is gone.

The close of a connection is to end the attachments of its tabs, but it reaches them only by way of the
session, which the connection does not keep alive: a session lives as long as the browser or a call that
holds it, and once it is gone it does not come back. So a tab that outlives its session and was attached
stays so, whether or not the connection closes, until it is itself told that its attachment has ended, and
then its collaborators hear of it once. -/
namespace RemoteDebug.Engine
open Protocol Wire

namespace State

variable {s : State} {t : Instance} {a : Action} {o : Occasion}

/-- What holds at first, and after an action exactly if the action begins it, or keeps it where it holds,
holds exactly if it was kept all along, or since it began. -/
theorem lasts_or_since_iff {P : State → Prop} {keep begins : State → Action → Prop} (start : P s)
    (step : ∀ actions a, P ((s.run actions).act a) ↔
      begins (s.run actions) a ∨ (P (s.run actions) ∧ keep (s.run actions) a))
    (actions : List Action) :
    P (s.run actions) ↔ Lasts keep s actions ∨ Since keep begins s actions := by
  induction actions using List.reverseRecOn with
  | nil => exact iff_of_true start (Or.inl trivial)
  | append_singleton actions a ih =>
    rw [since_concat, lasts_concat, run_append]
    refine (step actions a).trans ?_
    rw [ih]
    tauto

/-! ### A session that is gone -/

theorem Sound.gone_act (hs : s.Sound) (gone : s.alive = false) (a : Action) : (s.act a).alive = false :=
  Bool.eq_false_iff.mpr fun alive => Bool.eq_false_iff.mp gone (hs.alive_of_act alive)

theorem Sound.gone_run (hs : s.Sound) (gone : s.alive = false) (actions : List Action) :
    (s.run actions).alive = false := by
  induction actions generalizing s with
  | nil => exact gone
  | cons a rest ih => exact ih (hs.act a) (hs.gone_act gone a)

/-- A session goes with the browser if no call holds it. -/
theorem gone_of_idle (idle : s.calls = []) : (s.act .dropBrowser).alive = false := by
  show (false || s.calls.any (·.request.holdsSession)) = false
  rw [idle]
  rfl

theorem deaf_of_gone (gone : s.alive = false) : s.listens = false := by
  unfold listens
  rw [gone, Bool.and_false]

/-- A connection that closes then closes for itself. -/
theorem close_of_gone (gone : s.alive = false) : (s.act .close).tabs = s.tabs ∧
    (s.act .close).journal = s.journal ∧ (s.act .close).connection.connected = false := by
  show (s.close.1.unwind s.close.2).tabs = _ ∧ (s.close.1.unwind s.close.2).journal = _ ∧ _
  unfold State.act shutDown State.close
  rw [deaf_of_gone gone]
  cases hc : s.connection.connected <;> simp [State.unwind, hc, Connection.close]

/-! ### What still ends an attachment -/

/-- The tab itself is told that its attachment has ended: by whoever holds it, by a report of its debugger
that comes past the connection, or by a detach of it that goes on after it heard that it is granted. -/
def Dismisses (s : State) (t : Instance) : Action → Prop
  | .detached u => u = t
  | .handle u m => u = t ∧ ∃ reply, DebuggerReply.ofJson m.content = .ok reply ∧ reply.kind = .closed
  | .resume id => ∃ c ∈ s.calls, c.id = id ∧ c.request = .detach t ∧
      ∃ reply, s.Answered t c reply ∧ reply.code.isOk = true
  | _ => False

theorem Sound.gone_before (hs : s.Sound) (gone : s.alive = false) (h : s.occasion? a = some o) :
    o.before.alive = false := by
  have hgone := hs.gone_act gone a
  rw [act_of_occasion h] at hgone
  exact (alive_fire o.before o.trigger).symm.trans hgone

/-- Without a session, the detach of an instance reaches no other. -/
theorem touches_of_gone {x : State} {u : Instance} (gone : x.alive = false) :
    x.Touches t (.detach u) ↔ u = t := by
  refine or_iff_left ?_
  rintro ⟨_, alive, _⟩
  rw [gone] at alive
  cases alive

theorem closing?_eq_some {u : Instance} {m : Message} : s.closing? u m = some o ↔
    (s.tab? u).isSome = true ∧ (∃ reply, DebuggerReply.ofJson m.content = .ok reply ∧ reply.kind = .closed) ∧
      o = ⟨s.tell u .closed, .detached u, []⟩ := by
  constructor
  · intro h
    have hbefore := before_of_closing h
    unfold closing? at h
    split at h
    · cases h
    · next hu =>
      split at h
      · cases h
      · next reply hr =>
        split at h
        · next hk => exact ⟨Option.isSome_of_mem hu, ⟨reply, hr, hk⟩, hbefore⟩
        · cases h
  · rintro ⟨hu, ⟨reply, hr, hk⟩, rfl⟩
    obtain ⟨tab, hu⟩ := Option.isSome_iff_exists.mp hu
    unfold closing?
    rw [hu]
    dsimp only
    rw [hr]
    dsimp only
    rw [hk]

/-- Without a session, an action ends the attachment of a tab exactly if it tells the tab itself so. -/
theorem Sound.ends_iff_of_gone (hs : s.Sound) (gone : s.alive = false) (ha : s.isAttached t = true) :
    s.Ends t a ↔ s.Dismisses t a := by
  have deaf := deaf_of_gone gone
  have hnone : ∀ id, s.terminating? id = none := by
    intro id
    unfold terminating?
    rw [gone]
    rfl
  have hdeaf : ∀ {x : State} (m : Message), x.listens = false → x.delivering? m = none := by
    intro x m hx
    unfold delivering?
    rw [hx]
    rfl
  constructor
  · rintro ⟨o, ho, hr⟩
    have hb := hs.gone_before gone ho
    cases a with
    | close =>
      obtain rfl := Option.some.inj ho
      have hl := hr.2.1
      rw [deaf] at hl
      cases hl
    | terminate id =>
      rw [occasion?, hnone] at ho
      cases ho
    | tabTerminated u =>
      obtain ⟨tab, _, ho⟩ := Option.bind_eq_some_iff.mp ho
      rw [hnone] at ho
      cases ho
    | detached u =>
      obtain rfl := Option.some.inj ho
      exact (touches_of_gone hb).mp hr
    | handle u m =>
      obtain ⟨_, hclosed, rfl⟩ := closing?_eq_some.mp ho
      exact ⟨(touches_of_gone hb).mp hr, hclosed⟩
    | deliver m =>
      rw [occasion?, hdeaf m deaf] at ho
      cases ho
    | receive =>
      simp only [occasion?] at ho
      split at ho
      · cases ho
      · next m rest _ =>
        have hnothing : some o = none := ho.symm.trans (hdeaf m deaf)
        cases hnothing
    | resume id =>
      obtain ⟨c, hc, ho⟩ := Option.bind_eq_some_iff.mp ho
      obtain ⟨k, d, u, hp, hu, rfl⟩ := before_of_ousting ho
      obtain ⟨mem, rfl⟩ := call_of_call? hc
      obtain ⟨about, reply, heard, ok⟩ := ousts_eq_some hu
      obtain rfl := (touches_of_gone hb).mp hr
      exact ⟨c, mem, rfl, about, reply, ⟨k, d, hp, heard⟩, ok⟩
    | _ => cases ho
  · intro h
    cases a with
    | detached u => exact ⟨_, rfl, Or.inl h⟩
    | handle u m =>
      obtain ⟨rfl, hclosed⟩ := h
      obtain ⟨tab, hu, _⟩ := ident_of_attached ha
      exact ⟨_, closing?_eq_some.mpr ⟨Option.isSome_of_mem hu, hclosed, rfl⟩, Or.inl rfl⟩
    | resume id =>
      obtain ⟨c, hc, rfl, about, reply, ⟨k, d, hp, heard⟩, ok⟩ := h
      refine ⟨⟨s.quit c k, .detached t, [.finished c.id c.request (.handshake (.ok ()))]⟩, ?_, Or.inl rfl⟩
      simp only [occasion?, hs.call?_eq hc, Option.bind_some, ousting?, hp, ousts?, about, heard, ok, if_true,
        Option.map_some]
    | _ => exact h.elim

/-- What goes on with an attach is no end. -/
theorem Grants.not_dismisses (h : s.Grants t a) (hs : s.Sound) : ¬ s.Dismisses t a := by
  obtain ⟨c, hc, rfl⟩ := h
  rintro ⟨x, hx, hid, about, _⟩
  obtain rfl := hs.call_eq hc.mem hx hid.symm
  obtain ⟨l, hr⟩ := hc.seeks.eq
  rw [about] at hr
  cases hr

/-! ### What a tab hears of its end -/

/-- Before anything ends, a tab is told at most that it is closed. -/
theorem events_before (h : s.occasion? a = some o) : ∃ lead, o.before.journal = s.journal ++ lead ∧
    ∀ t, tabEvents t lead = [] ∨ ∃ l, s.view.listener t = some l ∧ tabEvents t lead = [.closed l] := by
  rcases journal_before h with hj | ⟨u, _, hj⟩
  · exact ⟨[], hj.trans (List.append_nil _).symm, fun _ => Or.inl rfl⟩
  · refine ⟨_, hj, fun t => ?_⟩
    rw [tabEvents_told]
    split
    · next hut =>
      subst hut
      cases hl : s.view.listener u with
      | none => exact Or.inl rfl
      | some l => exact Or.inr ⟨l, rfl, rfl⟩
    · exact Or.inl rfl

/-- An action that detaches a tab has it hear so once, its context first and then its listener, and after
at most the report that it is closed; no other action has it hear so. -/
theorem Sound.farewell_act (hs : s.Sound) (hp : s.Paired) (a : Action) (t : Instance) :
    ∃ news, (s.act a).journal = s.journal ++ news ∧
      ((s.isAttached t = true ∧ (s.act a).isAttached t = false ∧ ∃ l lead, s.view.listener t = some l ∧
          (lead = [] ∨ lead = [.closed l]) ∧ tabEvents t news = lead ++ [.contextDetached, .disconnected l]) ∨
        ((s.isAttached t = true → (s.act a).isAttached t = true) ∧
          ∀ e ∈ tabEvents t news, e.isFarewell = false)) := by
  cases ho : s.occasion? a with
  | none =>
    obtain ⟨_, news, hj, hquiet⟩ := (hs.endFree_act ho).paired hs hp
    refine ⟨news, hj, Or.inr ⟨fun ha => (hs.attached_act a).mpr (Or.inr ⟨ha, ?_⟩), hquiet t⟩⟩
    rintro ⟨o, ho', _⟩
    rw [ho] at ho'
    cases ho'
  | some o =>
    have hb : o.before.Sound := BypassFreeMoves.sound (replyFree_before ho).bypassFree hs
    obtain ⟨lead, hlead, htold⟩ := events_before ho
    obtain ⟨news, he⟩ := ended_fire o.before o.trigger
    have events : tabEvents t (lead ++ (news ++ o.after)) = tabEvents t lead ++ tabEvents t news := by
      rw [tabEvents_append, tabEvents_append, tabEvents_after ho, List.append_nil]
    rw [act_of_occasion ho, ← hs.attached_before ho]
    refine ⟨lead ++ (news ++ o.after), ?_, ?_⟩
    · show (o.before.fire o.trigger).journal ++ o.after = _
      rw [he.journal, hlead, List.append_assoc, List.append_assoc]
    · rw [events]
      rcases he.heard hb t with ⟨hsame, hn⟩ | ⟨hwas, hgone, l, hl, hn⟩
      · rw [hn, List.append_nil]
        refine Or.inr ⟨fun ha => hsame.trans ha, fun e hm => ?_⟩
        rcases htold t with hnone | ⟨l, _, hclosed⟩
        · rw [hnone] at hm
          cases hm
        · rw [hclosed] at hm
          rw [List.mem_singleton.mp hm]
          rfl
      · obtain ⟨_, _, _, hview⟩ := hs.view_before ho
        rw [hview] at hl
        refine Or.inl ⟨hwas, hgone, l, tabEvents t lead, hl, (htold t).imp_right ?_, by rw [hn]⟩
        rintro ⟨l', hl', hclosed⟩
        rw [hclosed, Option.some.inj (hl'.symm.trans hl)]

/-- In every history in which the browser is dropped while no call is under way, no later close of the
connection reaches a tab. A tab that was attached by then is attached exactly as long as it is not itself
told that its attachment has ended, or since an attach of it was granted later; it is told so once, its
context first and then its listener, and otherwise its collaborators hear nothing of the kind. -/
theorem attachments_outlive_session (config : Config) (restartable : Bool) (rules : List (String × Json))
    (actions later : List Action) (idle : ((initial config restartable rules).run actions).calls = []) :
    let kept := ((initial config restartable rules).run actions).act .dropBrowser
    let s := kept.run later
    ((s.act .close).tabs = s.tabs ∧ (s.act .close).journal = s.journal ∧
        (s.act .close).connection.connected = false) ∧
      ∀ t, kept.isAttached t = true →
        (s.isAttached t = true ↔ Lasts (fun s a => ¬ s.Dismisses t a) kept later ∨
            Since (fun s a => ¬ s.Dismisses t a) (fun s a => s.Grants t a) kept later) ∧
          ∀ a, ∃ news, (s.act a).journal = s.journal ++ news ∧
            ((s.isAttached t = true ∧ s.Dismisses t a ∧ (s.act a).isAttached t = false ∧
                ∃ l lead, (s.tab? t).bind (·.listener) = some l ∧ (lead = [] ∨ lead = [.closed l]) ∧
                  tabEvents t news = lead ++ [.contextDetached, .disconnected l]) ∨
              (¬ (s.isAttached t = true ∧ s.Dismisses t a) ∧
                ∀ e ∈ tabEvents t news, e.isFarewell = false)) := by
  intro kept s
  have h₀ := sound_initial config restartable rules
  have hkept : kept.Sound := (h₀.run actions).act .dropBrowser
  have hpaired : kept.Paired :=
    ((h₀.run actions).act_paired (paired_run _ h₀ (paired_initial config restartable rules) actions) _).1
  have hgone : ∀ before, (kept.run before).alive = false := hkept.gone_run (gone_of_idle idle)
  -- a tab that is attached stays so exactly if it is not told
  have hstep : ∀ before a t, ((kept.run before).act a).isAttached t = true ↔ (kept.run before).Grants t a ∨
      ((kept.run before).isAttached t = true ∧ ¬ (kept.run before).Dismisses t a) := by
    intro before a t
    have hb := hkept.run before
    rw [hb.attached_act a]
    refine or_congr_right (and_congr_right fun ha => not_congr ?_)
    exact hb.ends_iff_of_gone (hgone before) ha
  refine ⟨close_of_gone (hgone later), fun t ha => ⟨?_, fun a => ?_⟩⟩
  · exact lasts_or_since_iff (P := fun s => s.isAttached t = true) ha (fun before a => hstep before a t) later
  · have hs := hkept.run later
    obtain ⟨news, hj, ⟨hwas, hended, hheard⟩ | ⟨hstays, hquiet⟩⟩ :=
      hs.farewell_act (paired_run _ hkept hpaired later) a t
    · refine ⟨news, hj, Or.inl ⟨hwas, ?_, hended, hheard⟩⟩
      by_contra hnot
      rw [(hstep later a t).mpr (Or.inr ⟨hwas, hnot⟩)] at hended
      cases hended
    · refine ⟨news, hj, Or.inr ⟨fun ⟨hwas, hdismissed⟩ => ?_, hquiet⟩⟩
      rcases (hstep later a t).mp (hstays hwas) with hgrants | ⟨_, hnot⟩
      · exact hgrants.not_dismisses hs hdismissed
      · exact hnot hdismissed

/-- The browser is dropped with a tab attached and the connection closes; the tab is detached only when it
is told, and then hears so. -/
theorem detached_after_session :
    let kept := ((initial {} false obliging).run attaching).act .dropBrowser
    let s := kept.run [.close]
    ((initial {} false obliging).run attaching).calls = [] ∧ kept.isAttached 0 = true ∧
      s.connection.connected = false ∧ s.isAttached 0 = true ∧
      (s.act (.detached 0)).isAttached 0 = false ∧
      ∃ news, (s.act (.detached 0)).journal = s.journal ++ news ∧
        ∃ lead, (lead = [] ∨ lead = [.closed { name := "l" }]) ∧
          tabEvents 0 news = lead ++ [.contextDetached, .disconnected { name := "l" }] := by
  intro kept s
  have idle : ((initial {} false obliging).run attaching).calls = [] := by decide +kernel
  have attached : kept.isAttached 0 = true := by decide +kernel
  have still : s.isAttached 0 = true := by decide +kernel
  have hlistener : (s.tab? 0).bind (·.listener) = some { name := "l" } := by decide +kernel
  obtain ⟨_, hheard⟩ := (attachments_outlive_session {} false obliging attaching [.close] idle).2 0 attached
  obtain ⟨news, hj, ⟨_, _, hended, l, lead, hl, hlead, hevents⟩ | ⟨hnot, _⟩⟩ := hheard (.detached 0)
  · obtain rfl := Option.some.inj (hlistener.symm.trans hl)
    exact ⟨idle, attached, by decide +kernel, still, hended, news, hj, lead, hlead, hevents⟩
  · exact absurd ⟨still, rfl⟩ hnot

/-- Where the session is gone, a tab stays attached when the connection closes, and nobody hears a thing. -/
theorem close_misses_kept_tab :
    let kept := ((initial {} false obliging).run attaching).act .dropBrowser
    ((initial {} false obliging).run attaching).calls = [] ∧ kept.isAttached 0 = true ∧
      kept.connection.connected = true ∧ (kept.act .close).connection.connected = false ∧
      (kept.act .close).isAttached 0 = true ∧ (kept.act .close).journal.length = kept.journal.length := by
  decide +kernel

end State
end RemoteDebug.Engine
