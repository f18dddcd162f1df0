import RemoteDebug.Proofs.Negotiation
import RemoteDebug.Proofs.Recording

/-! Who hears what the debugger of a tab reports.

A report that comes in through the connection is handed to the tab that is registered, attached or not,
and the tab passes it to the listener that the last attach brought. A tab whose attach was granted leaves
the registry with its attachment. So a report that finds its tab not attached is heard by the listener of
an attach that has not been granted: one that is in flight, or has failed. -/
namespace RemoteDebug.Engine
open Protocol Wire

namespace State

variable {s : State} {t : Instance} {a : Action} {l : Listener}

/-- Since something began and was kept, another thing has come and was kept too, or has not come. -/
theorem since_or_since {keep begins : State → Action → Prop} {actions : List Action}
    (h : Since keep begins s actions) (comes : State → Action → Prop) :
    Since keep comes s actions ∨ Since (fun s a => keep s a ∧ ¬ comes s a) begins s actions := by
  induction actions using List.reverseRecOn with
  | nil => exact h.elim
  | append_singleton actions a ih =>
    rw [since_concat] at h
    rw [since_concat, since_concat]
    rcases h with hbegins | ⟨hearlier, hkeep⟩
    · exact Or.inr (Or.inl hbegins)
    · by_cases hcomes : comes (s.run actions) a
      · exact Or.inl (Or.inl hcomes)
      · rcases ih hearlier with hcame | hnot
        · exact Or.inl (Or.inr ⟨hcame, hkeep⟩)
        · exact Or.inr (Or.inr ⟨hnot, hkeep, hcomes⟩)

/-! ### The place of a tab that was granted -/

/-- What goes on with an attach that is granted begins none. -/
theorem Grants.not_begins (h : s.Grants t a) (hs : s.Sound) (l : Listener) : ¬ s.Begins t l a := by
  obtain ⟨c, hc, rfl⟩ := h
  rintro ⟨x, hx, -, admits, he⟩
  obtain rfl := hs.call_eq hc.mem hx (Action.resume.inj he)
  exact hc.pursues.waits admits.1

/-- An attached tab that keeps its place stays attached: an end that reaches it takes it out of the
registry. -/
theorem Sound.attached_of_kept (hs : s.Sound) (alive : (s.act a).alive = true)
    (attached : s.isAttached t = true) (kept : (s.act a).Enlisted t) : (s.act a).isAttached t = true := by
  by_cases hends : s.Ends t a
  · obtain ⟨o, ho, _⟩ := hends
    have hb : o.before.Sound := BypassFreeMoves.sound (replyFree_before ho).bypassFree hs
    rw [act_of_occasion ho] at alive kept ⊢
    have halive : o.before.alive = true := (alive_fire _ o.trigger).symm.trans alive
    rcases hb.cleared_fire halive o.trigger t ((hs.attached_before ho).trans attached) with
      hstill | hout | ⟨_, _, hm⟩
    · exact hstill
    · exact absurd kept hout
    · cases hm
  · exact (hs.attached_act a).mpr (Or.inr ⟨attached, hends⟩)

/-- Since its attach was granted and as long as no other begins, a tab that is in its place is attached. -/
theorem Sound.attached_of_granted (hs : s.Sound) {actions : List Action}
    (h : Since (fun s a => ∀ l, ¬ s.Begins t l a) (fun s a => s.Grants t a) s actions) :
    t < (s.run actions).tabs.length ∧ ((s.run actions).alive = true → (s.run actions).Enlisted t →
      (s.run actions).isAttached t = true) := by
  induction actions using List.reverseRecOn with
  | nil => exact h.elim
  | append_singleton actions a ih =>
    have hrun := hs.run actions
    rw [since_concat] at h
    rw [run_append]
    rcases h with hgrants | ⟨hearlier, others⟩
    · obtain ⟨c, hc, rfl⟩ := hgrants
      have haloof : Aloof t (s.run actions) ((s.run actions).act (.resume c.id)) :=
        .act fun l => Grants.not_begins ⟨c, hc, rfl⟩ hrun l
      have known := hrun.tab_of_mem hc.mem (Request.tab?_of_handshake? hc.seeks)
      exact ⟨Nat.lt_of_lt_of_le known haloof.length,
        fun _ _ => (hrun.attached_act _).mpr (Or.inl ⟨c, hc, rfl⟩)⟩
    · obtain ⟨known, hattached⟩ := ih hearlier
      have haloof : Aloof t (s.run actions) ((s.run actions).act a) := .act others
      refine ⟨Nat.lt_of_lt_of_le known haloof.length, fun alive enlisted => ?_⟩
      have ha := hattached (hrun.alive_of_act alive) (haloof.enlisted known enlisted)
      exact hrun.attached_of_kept alive ha enlisted

/-! ### Who hears -/

/-- The debugger of a tab reports something, and the connection hands it to the tab. -/
def Reports (s : State) (t : Instance) (a : Action) : Prop :=
  ∃ m, s.arriving? a = some m ∧ s.addressed? m = some t ∧ isReport m = true

/-- The connection hands a message only to a tab in its place, and only while there is a session. -/
theorem enlisted_of_addressed {m : Message} (h : s.addressed? m = some t) :
    s.alive = true ∧ s.Enlisted t := by
  unfold addressed? at h
  split at h
  · next u hu =>
    split at h
    · next hl =>
      obtain rfl := Option.some.inj h
      exact ⟨(Bool.and_eq_true_iff.mp hl).2, registered_of_recipient hu⟩
    · cases h
  · cases h

theorem heard_eq_some (s : State) (t : Instance) (a : Action) :
    (s.arriving? a).bind (s.audience? t) = some l ↔ s.Reports t a ∧ s.view.listener t = some l := by
  unfold Reports
  simp only [Option.bind_eq_some_iff, audience?_eq_some]
  tauto

/-- The last attach of the tab that began brought the listener. -/
def BroughtLast (start : State) (t : Instance) (l : Listener) (actions : List Action) : Prop :=
  Since (fun s a => ∀ l', ¬ s.Begins t l' a) (fun s a => s.Begins t l a) start actions

theorem Sound.broughtLast_iff (hs : s.Sound) (fresh : s.view.listener t = none) (actions : List Action) :
    (s.run actions).view.listener t = some l ↔ s.BroughtLast t l actions := by
  refine since_iff (P := fun s => s.view.listener t = some l) ?_ (fun before a => ?_) actions
  · simp [fresh]
  · exact (hs.run before).listener_act a

/-- In every history, whatever comes in through the connection, the listener that hears a report of a tab
is that of the last attach of the tab that began, and it hears every report that the tab is handed. Where
the tab is not attached, that attach has not been granted. -/
theorem reports_reach_last_listener (config : Config) (restartable : Bool) (rules : List (String × Json))
    (actions : List Action) (a : Action) (through : ∀ u m, a ≠ .handle u m) (t : Instance) :
    let start := initial config restartable rules
    let s := start.run actions
    ∃ news, (s.act a).journal = s.journal ++ news ∧ (reports t news).length ≤ 1 ∧
      (∀ l, l ∈ reports t news ↔ s.Reports t a ∧ start.BroughtLast t l actions) ∧
      ∀ l ∈ reports t news, s.isAttached t = true ∨
        Since (fun s a => (∀ l', ¬ s.Begins t l' a) ∧ ¬ s.Grants t a) (fun s a => s.Begins t l a)
          start actions := by
  intro start s
  have hs : start.Sound := sound_initial config restartable rules
  have fresh : start.view.listener t = none := by simp [start, initial, listener_eq, tab?]
  obtain ⟨news, hj, hn⟩ := act_hearer s t through
  have hheard : ∀ l, l ∈ reports t news ↔ s.Reports t a ∧ start.BroughtLast t l actions := by
    intro l
    rw [hn, Option.mem_toList, heard_eq_some, hs.broughtLast_iff fresh]
  refine ⟨news, hj, ?_, hheard, fun l hl => ?_⟩
  · rw [hn, Option.length_toList]
    split <;> omega
  · obtain ⟨⟨m, -, haddressed, -⟩, hsince⟩ := (hheard l).mp hl
    obtain ⟨alive, enlisted⟩ := enlisted_of_addressed haddressed
    rcases since_or_since hsince fun s a => s.Grants t a with hgranted | hnot
    · exact Or.inl ((hs.attached_of_granted hgranted).2 alive enlisted)
    · exact Or.inr hnot

/-- The server reports that the tab went elsewhere. -/
def navigation : Message :=
  .forTab .v8Debugger 7 (.ofFields [("command", .str "navigated"), ("result", .ofNat 0), ("data", .str "b")])

/-- The listener of an attached tab hears where the tab went; it is that of the last attach. -/
theorem navigation_reaches_attached_tab :
    let start := initial {} false obliging
    let history := accepting ++ [.resume 2]
    let s := start.run history
    (∀ u m, Action.deliver navigation ≠ .handle u m) ∧ s.isAttached 0 = true ∧
      ∃ news, (s.act (.deliver navigation)).journal = s.journal ++ news ∧ reports 0 news = [{ name := "l" }] ∧
        start.BroughtLast 0 { name := "l" } history := by
  intro start history s
  have through : ∀ u m, Action.deliver navigation ≠ .handle u m := fun _ _ => Action.noConfusion
  obtain ⟨news, hj, _, hheard, _⟩ :=
    reports_reach_last_listener {} false obliging history (.deliver navigation) through 0
  have hnews : reports 0 ((s.act (.deliver navigation)).journal.drop s.journal.length) = [{ name := "l" }] := by
    decide +kernel
  rw [hj, List.drop_left] at hnews
  have hlast := (hheard { name := "l" }).mp (by rw [hnews]; exact List.mem_singleton.mpr rfl)
  exact ⟨through, by decide +kernel, news, hj, hnews, hlast.2⟩

/-- A history in which the attach of a tab is refused. -/
def declined : List Action :=
  [.start 0 .connect, .resume 0, .receive, .resume 0, .start 1 .tabs, .resume 1, .receive, .resume 1,
    .answerWith "attach" (.ofFields [("command", .str "attach"), ("result", .ofNat 1)]),
    .start 2 (.attach 0 { name := "l" }), .resume 2, .receive, .resume 2]

/-- The listener of an attach that was refused hears where the tab goes, though nothing has attached it. -/
theorem navigation_reaches_refused_listener :
    let s := (initial {} false obliging).run declined
    s.Settled ∧ s.isAttached 0 = false ∧
      reports 0 ((s.act (.deliver navigation)).journal.drop s.journal.length) = [{ name := "l" }] := by
  decide +kernel

end State
end RemoteDebug.Engine
