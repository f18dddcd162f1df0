import RemoteDebug.Proofs.Pursuit
import RemoteDebug.Proofs.Sending
import RemoteDebug.Proofs.Settling
import RemoteDebug.Proofs.Tidiness

/-! One exchange with a tab at a time.

Whoever waits for a reply of a tab holds the tab, so one call at most does. It has a receiver in the table
of the tab, and a slot as long as it has heard nothing; there is no other receiver and no other slot. The
tab is marked as attaching exactly while this call is an attach. Whatever goes out goes out on an occasion
to send it: an attach while the tab is not attached, anything else while it is. -/
namespace RemoteDebug.Engine
open Protocol Wire

/-- A call waits for the reply to an exchange with a tab. -/
structure Call.Engages (c : Call) (t : Instance) : Prop where
  about : c.request.tab? = some t
  waits : ¬ c.Idle

theorem Request.tab?_of_desk {r : Request} {t : Instance} (h : r.desk = .tab t) : r.tab? = some t := by
  cases r <;> simp_all [Request.tab?, Request.desk]

theorem eq_nil_or_singleton {l : List Nat} {k : Nat} (sorted : l.Pairwise (· < ·)) (all : ∀ x ∈ l, x = k) :
    l = [] ∨ l = [k] := by
  cases l with
  | nil => exact Or.inl rfl
  | cons a rest =>
    obtain rfl := all a List.mem_cons_self
    cases rest with
    | nil => exact Or.inr rfl
    | cons b rest =>
      have hb := all b (List.mem_cons_of_mem _ List.mem_cons_self)
      have hlt := (List.pairwise_cons.mp sorted).1 b List.mem_cons_self
      exact absurd hlt (hb ▸ Nat.lt_irrefl b)

namespace State

variable {s s' : State} {c x : Call} {t : Instance} {k : Ticket} {d : Nat}

/-! ### One call -/

/-- The table of a tab has one receiver, with this ticket, and its slot as long as it waits. -/
structure Occupied (s : State) (t : Instance) (command : String) (k : Ticket) : Prop where
  receiver : ∀ k', ((s.tabTable t).receiver? k').isSome = true ↔ k' = k
  queue : ∀ command', (s.tabTable t).queue command' =
    if command' = command ∧ (s.tabTable t).isLive k = true then [k] else []

/-- The table of a tab has no receiver and no slot. -/
structure Unoccupied (s : State) (t : Instance) : Prop where
  receiver : ∀ k, (s.tabTable t).receiver? k = none
  queue : ∀ command, (s.tabTable t).queue command = []

/-- Two calls do not wait for the same tab at a time. -/
theorem Sound.engaged_eq (hs : s.Sound) (hc : c ∈ s.calls) (hx : x ∈ s.calls) (h : c.Engages t)
    (h' : x.Engages t) : c = x := by
  obtain ⟨k, d, hp⟩ := point_of_waits h.waits
  obtain ⟨k', d', hp'⟩ := point_of_waits h'.waits
  exact hs.exclusive hc hx (hs.holder c _ k (waits_of_point hc hp))
    (hs.holder x _ k' (waits_of_point hx hp')) (Request.need?_of_tab? h.about)
    (Request.need?_of_tab? h'.about)

/-- Whoever has a receiver in the table of a tab waits for it. -/
theorem Sound.engaged_of_receiver (hs : s.Sound) {r : Receiver Unit}
    (hr : (s.view.board (.tab t)).receiver? k = some r) :
    ∃ x ∈ s.calls, x.Engages t ∧ ∃ d, x.point = .awaiting k d := by
  obtain ⟨x, hx, hdesk, d, hp⟩ := hs.owned (.tab t) k r hr
  exact ⟨x, hx, ⟨Request.tab?_of_desk hdesk, fun idle => idle k d hp⟩, d, hp⟩

theorem isLive_tabTable (s : State) (t : Instance) (k : Ticket) : (s.tabTable t).isLive k = true ↔
    (s.view.board (.tab t)).receiver? k = some .waiting := by
  show _ ↔ (s.tabTable t).blank.receiver? k = _
  rw [← Pending.isLive_iff, Pending.isLive_blank]

theorem isSome_tabTable (s : State) (t : Instance) (k : Ticket) :
    ((s.tabTable t).receiver? k).isSome = ((s.view.board (.tab t)).receiver? k).isSome := by
  show _ = ((s.tabTable t).blank.receiver? k).isSome
  rw [Pending.receiver?_blank, Option.isSome_map]

/-- The call that waits for a tab has the only receiver and the only slot. -/
theorem Sound.occupied (hs : s.Sound) (tidy : s.view.Tidy) (hc : c ∈ s.calls) (h : c.Engages t)
    (hp : c.point = .awaiting k d) : s.Occupied t c.request.command k := by
  have hw : s.view.Waits c (.tab t) k := ⟨hc, desk_of_tab? h.about, d, hp⟩
  have only : ∀ k' r, (s.view.board (.tab t)).receiver? k' = some r → k' = k := by
    intro k' r hr
    obtain ⟨x, hx, hxt, d', hp'⟩ := hs.engaged_of_receiver hr
    rw [← hs.engaged_eq hc hx h hxt, hp] at hp'
    cases hp'
    rfl
  obtain ⟨r, hr, place⟩ := hs.seat c (.tab t) k hw
  have hboard := hs.boards (.tab t)
  refine ⟨fun k' => ?_, fun command' => ?_⟩
  · rw [isSome_tabTable]
    constructor
    · intro hsome
      obtain ⟨r', hr'⟩ := Option.isSome_iff_exists.mp hsome
      exact only k' r' hr'
    · rintro rfl
      rw [hr]
      rfl
  · show (s.view.board (.tab t)).queue command' = _
    have hslots := eq_nil_or_singleton (hboard.sorted command') fun k' hk =>
      only k' _ (tidy.boards (.tab t) command' k' hk)
    split
    · next hlive =>
      obtain ⟨rfl, hlive⟩ := hlive
      rw [isLive_tabTable, hr] at hlive
      have hk := place (Option.some.inj hlive)
      exact hslots.resolve_left (List.ne_nil_of_mem hk)
    · next hdead =>
      refine hslots.resolve_right fun hone => hdead ?_
      have hk : k ∈ (s.view.board (.tab t)).queue command' := by
        rw [hone]
        exact List.mem_singleton.mpr rfl
      have hwaiting := tidy.boards (.tab t) command' k hk
      refine ⟨?_, (isLive_tabTable s t k).mpr hwaiting⟩
      rw [hr] at hwaiting
      exact hboard.unique command' _ k hk (place (Option.some.inj hwaiting))

/-- Without such a call there is neither. -/
theorem Sound.unoccupied (hs : s.Sound) (tidy : s.view.Tidy) (h : ∀ c ∈ s.calls, ¬ c.Engages t) :
    s.Unoccupied t := by
  have nobody : ∀ k, (s.view.board (.tab t)).receiver? k = none := by
    intro k
    by_contra hne
    obtain ⟨r, hr⟩ := Option.ne_none_iff_exists'.mp hne
    obtain ⟨x, hx, hxt, _⟩ := hs.engaged_of_receiver hr
    exact h x hx hxt
  refine ⟨fun k => ?_, fun command => ?_⟩
  · rw [← Option.isNone_iff_eq_none, ← Option.not_isSome, isSome_tabTable, nobody]
    rfl
  · refine List.eq_nil_iff_forall_not_mem.mpr fun k hk => ?_
    have hwaiting := tidy.boards (.tab t) command k hk
    rw [nobody] at hwaiting
    cases hwaiting

/-- Where nothing can go on, the call that waits has heard nothing yet. -/
theorem Sound.isLive_of_settled (hs : s.Sound) (settled : s.Settled) (hc : c ∈ s.calls)
    (h : c.Engages t) (hp : c.point = .awaiting k d) : (s.tabTable t).isLive k = true := by
  have hdesk := desk_of_tab? h.about
  obtain ⟨r, hr, _⟩ := hs.seat c (.tab t) k ⟨hc, hdesk, d, hp⟩
  rw [isLive_tabTable, hr]
  have still := (settled_iff.mp settled).1 c hc
  rw [← Bool.not_eq_true, hs.runnable_iff hc, hp, hdesk] at still
  by_contra hne
  exact still (Or.inr ⟨r, hr, fun hwaiting => hne (by rw [hwaiting])⟩)

/-! ### What goes out -/

theorem isAttached_command (s : State) (u : Instance) (cmd : DebuggerCommand) :
    (s.command u cmd).1.isAttached t = s.isAttached t := by
  unfold command
  split
  · rfl
  · next tab _ =>
    have hsend : (s.send none (cmd.toMessage tab.id)).1.isAttached t = s.isAttached t :=
      congrFun (congrArg View.attached (view_send s _ _)) t
    split <;> next h => rw [h] at hsend; exact hsend

/-- A call that begins changes no attachment. -/
theorem Sound.attached_of_idle (hs : s.Sound) (hc : c ∈ s.calls) (idle : c.Idle) :
    (s.resume c).isAttached t = s.isAttached t := by
  have quiet : s.ousting? c = none := by
    unfold ousting?
    split
    · next k d hp => exact absurd hp (idle k d)
    · rfl
  have hiff := hs.attached_resume (t := t) hc quiet
  rw [or_iff_right fun h => h.pursues.waits idle] at hiff
  exact Bool.eq_iff_iff.mpr hiff

/-- Where a message goes out, no attachment changes. -/
theorem Sound.attached_of_licensed (hs : s.Sound) {a : Action} {asker : Option CallId} {m : Message}
    {news : List Entry} (hj : (s.act a).journal = s.journal ++ news) (sent : .sent asker m ∈ news)
    (licensed : s.Licensed a asker m) : (s.act a).isAttached t = s.isAttached t := by
  have hcall : ∀ c ∈ s.calls, a = .resume c.id → asker = some c.id →
      (s.act a).isAttached t = s.isAttached t := by
    rintro c hc rfl rfl
    have hact : s.act (.resume c.id) = s.resume c := by simp only [State.act, hs.call?_eq hc]
    rw [hact] at hj ⊢
    -- a call sends when it begins
    obtain ⟨idle, _⟩ : s.Admits c := by
      by_contra h
      obtain ⟨es, hj', hn⟩ := mute_resume h
      rw [hj, List.append_cancel_left_eq] at hj'
      rw [← hj'] at hn
      exact asks_eq_nil_iff.mp hn c.id m sent
    exact hs.attached_of_idle hc idle
  cases licensed with
  | service c mem about => exact hcall c mem rfl rfl
  | attach c u l tab mem about known free => exact hcall c mem rfl rfl
  | detach c u tab mem about known attached => exact hcall c mem rfl rfl
  | command u tab cmd passed known attached => exact isAttached_command s u cmd

/-- In every history, one call at most waits for a tab. It has the only receiver in the table of the tab,
and the only slot, which it has as long as it has heard nothing, so in any case when the session has
settled; without such a call the table is empty. The tab is marked as attaching exactly if this call is an
attach. And whatever happens next, an attach goes out only to a tab that is not attached, and a detach or
a command only to a tab that is attached. -/
theorem exchanges_take_turns (config : Config) (restartable : Bool) (rules : List (String × Json))
    (actions : List Action) (t : Instance) :
    let s := (initial config restartable rules).run actions
    (∀ c ∈ s.calls, ∀ c' ∈ s.calls, c.Engages t → c'.Engages t → c = c') ∧
    (∀ c ∈ s.calls, c.Engages t → ∃ k d, c.point = .awaiting k d ∧ s.Occupied t c.request.command k ∧
      (s.Settled → (s.tabTable t).queue c.request.command = [k])) ∧
    ((∀ c ∈ s.calls, ¬ c.Engages t) → s.Unoccupied t) ∧
    (s.isAttaching t = true ↔ ∃ c ∈ s.calls, c.Engages t ∧ ∃ l, c.request = .attach t l) ∧
    ∀ a, a.isOffered = true → ∃ news, (s.act a).journal = s.journal ++ news ∧
      ∀ asker m, .sent asker m ∈ news →
        s.Licensed a asker m ∧ ∀ u, (s.act a).isAttached u = s.isAttached u := by
  intro s
  have h₀ : (initial config restartable rules).Sound := sound_initial config restartable rules
  have hs : s.Sound := h₀.run actions
  have tidy : s.view.Tidy := h₀.tidy_run actions (tidy_initial config restartable rules)
  have candid : s.Candid t := h₀.candid_run actions (candid_initial config restartable rules t)
  refine ⟨fun c hc c' hc' => hs.engaged_eq hc hc', fun c hc h => ?_, hs.unoccupied tidy, ?_,
    fun a offered => ?_⟩
  · obtain ⟨k, d, hp⟩ := point_of_waits h.waits
    have occupied := hs.occupied tidy hc h hp
    refine ⟨k, d, hp, occupied, fun settled => ?_⟩
    rw [occupied.queue, if_pos ⟨rfl, hs.isLive_of_settled settled hc h hp⟩]
  · refine candid.trans ⟨?_, ?_⟩
    · rintro ⟨c, hc, pursues⟩
      exact ⟨c, hc, ⟨Request.tab?_of_handshake? pursues.seeks, pursues.waits⟩, pursues.seeks.eq⟩
    · rintro ⟨c, hc, h, l, hr⟩
      exact ⟨c, hc, by rw [hr]; rfl, h.waits⟩
  · obtain ⟨news, hj, licensed⟩ := hs.licensed_act offered
    exact ⟨news, hj, fun asker m sent =>
      ⟨licensed asker m sent, fun u => hs.attached_of_licensed hj sent (licensed asker m sent)⟩⟩

/-- The first tab of a server that does not answer attaches is being attached. -/
def attempting : List Action :=
  [.start 0 .connect, .resume 0, .receive, .resume 0, .start 1 .tabs, .resume 1, .receive, .resume 1,
    .answerWith "attach" .null, .start 2 (.attach 0 { name := "l" }), .resume 2,
    .start 3 (.detach 0), .resume 3]

def attemptingCall : Call := ⟨2, .attach 0 { name := "l" }, .awaiting 1 3000⟩

/-- The attach has the only slot of its tab, and a detach that is called meanwhile waits in line. -/
theorem attach_has_its_turn :
    let s := (initial {} false obliging).run attempting
    attemptingCall ∈ s.calls ∧ attemptingCall.Engages 0 ∧ s.Settled ∧
      (s.tabTable 0).queue "attach" = [1] ∧ s.isAttaching 0 = true ∧
      Action.isOffered (.cancel 2) = true ∧ ∃ news, (s.act (.cancel 2)).journal = s.journal ++ news ∧
        ∀ asker m, .sent asker m ∈ news → s.Licensed (.cancel 2) asker m := by
  intro s
  have waits : attemptingCall ∈ s.calls := by decide +kernel
  have engages : attemptingCall.Engages 0 := ⟨rfl, fun idle => idle 1 3000 rfl⟩
  have settled : s.Settled := by decide +kernel
  obtain ⟨_, slot, _, mark, sends⟩ := exchanges_take_turns {} false obliging attempting 0
  obtain ⟨k, d, hp, _, queue⟩ := slot attemptingCall waits engages
  cases hp
  obtain ⟨news, hj, licensed⟩ := sends (.cancel 2) rfl
  exact ⟨waits, engages, settled, queue settled, mark.mpr ⟨_, waits, engages, _, rfl⟩, rfl, news, hj,
    fun asker m sent => (licensed asker m sent).1⟩

end State
end RemoteDebug.Engine
