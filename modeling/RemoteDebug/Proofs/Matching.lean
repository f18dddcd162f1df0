import RemoteDebug.Proofs.Exchange

/-! Whom a reply reaches.

The wire has no request numbers. A reply names a command, and of the calls that wait
for that command where it comes in, the one hears it whose request went out first. So a
reply is matched with the request that it answers only if no call that asked earlier
still waits there, and a reply to a request that its call has given up is heard by
the next call that asked the same. -/
namespace RemoteDebug.Engine
open Protocol Wire

/-- The calls whose requests went out, in the order in which they did. -/
def asks (es : List Entry) : List CallId :=
  es.filterMap fun
    | .sent (some id) _ => some id
    | _ => none

/-- The number of the last request of a call; the requests that went out are numbered from one. -/
def lastAsk (id : CallId) (es : List Entry) : Nat := (asks es).length - (asks es).reverse.idxOf id

theorem asks_append (a b : List Entry) : asks (a ++ b) = asks a ++ asks b := List.filterMap_append

theorem asks_eq_nil_iff {es : List Entry} : asks es = [] ↔ ∀ id m, .sent (some id) m ∉ es := by
  unfold asks
  rw [List.filterMap_eq_nil_iff]
  constructor
  · intro h id m hm
    cases h _ hm
  · intro h e he
    split
    · next id m => exact absurd he (h id m)
    · rfl

theorem lastAsk_le (id : CallId) (es : List Entry) : lastAsk id es ≤ (asks es).length := Nat.sub_le _ _

theorem lastAsk_of_asks_eq {es es' : List Entry} (h : asks es' = asks es) (id : CallId) :
    lastAsk id es' = lastAsk id es := by
  unfold lastAsk
  rw [h]

theorem lastAsk_self {es es' : List Entry} {id : CallId} (h : asks es' = asks es ++ [id]) :
    lastAsk id es' = (asks es).length + 1 := by
  unfold lastAsk
  rw [h, List.reverse_append, List.length_append]
  simp

theorem lastAsk_other {es es' : List Entry} {id x : CallId} (h : asks es' = asks es ++ [id])
    (hne : x ≠ id) : lastAsk x es' = lastAsk x es := by
  unfold lastAsk
  rw [h, List.reverse_append, List.length_append]
  simp [List.idxOf_cons_ne _ (Ne.symm hne)]

theorem asks_of_plain {es : List Entry} (plain : ∀ e ∈ es, e.isPlain = true) : asks es = [] := by
  refine List.filterMap_eq_nil_iff.mpr fun e he => ?_
  have hp := plain e he
  unfold Entry.isPlain at hp
  split
  · cases hp
  · rfl

namespace State

variable {s s' s'' : State} {c x : Call} {d : Desk} {k : Ticket} {command : String}

/-! ### Requests go out in the order of the tickets -/

/-- Of two calls that wait at a desk, the one with the lower ticket asked first. -/
def Ordered (s : State) : Prop :=
  ∀ x y d k k', s.view.Waits x d k → s.view.Waits y d k' → k < k' →
    lastAsk x.id s.journal < lastAsk y.id s.journal

theorem Ordered.of_eq (h : s.Ordered) (calls : s'.calls = s.calls)
    (same : asks s'.journal = asks s.journal) : s'.Ordered := by
  intro x y d k k' hx hy hk
  rw [lastAsk_of_asks_eq same, lastAsk_of_asks_eq same]
  have hmx : x ∈ s'.calls := hx.1
  have hmy : y ∈ s'.calls := hy.1
  rw [calls] at hmx hmy
  exact h x y d k k' ⟨hmx, hx.2⟩ ⟨hmy, hy.2⟩ hk

theorem asks_note {es : List Entry} (plain : ∀ e ∈ es, e.isPlain = true) :
    asks (s.note es).journal = asks s.journal := by
  show asks (s.journal ++ es) = _
  rw [asks_append, asks_of_plain plain, List.append_nil]

theorem asks_asked {m : Message} (sent : ((s.enter c).send (some c.id) m).2 = .ok ()) :
    asks (s.asked c m).journal = asks s.journal ++ [c.id] := by
  rw [journal_asked, sent, asks_append]
  rfl

theorem asks_refused {m : Message} {e : TransportError}
    (unsent : ((s.enter c).send (some c.id) m).2 = .error e) :
    asks (s.refused c m).journal = asks s.journal := by
  unfold refused
  rw [journal_quit, journal_asked, unsent, asks_append]
  exact List.append_nil _

/-- Whoever waits after a change in which no request goes out waited before. -/
theorem ReplyFreeMove.waits_old (h : ReplyFreeMove s s') (hs : s.Sound) (same : asks s'.journal = asks s.journal)
    (hw : s'.view.Waits x d k) : s.view.Waits x d k := by
  rcases h.waits hs hw with hw | ⟨c, m, _, sent, rfl, _⟩
  · exact hw
  · rw [asks_asked sent] at same
    have hlength := congrArg List.length same
    simp at hlength

theorem Change.asks (h : Change s s') : asks s'.journal = asks s.journal ∨
    ∃ c m, s.Ready c ∧ ((s.enter c).send (some c.id) m).2 = .ok () ∧ s' = s.asked c m := by
  cases h with
  | noted es plain => exact Or.inl (asks_note plain)
  | rewired c lasts opens listeners closes inbound => exact Or.inl rfl
  | readied ready => exact Or.inl rfl
  | served => exact Or.inl (congrArg _ (journal_ensureService s))
  | marked t l tab => exact Or.inl rfl
  | unmarked r => exact Or.inl (congrArg _ (journal_unmark s r))
  | purged => exact Or.inl rfl
  | enrolled c t tab mem idle holds about known vacant => exact Or.inl rfl
  | created e vacant =>
    refine Or.inl ?_
    show Engine.asks (s.journal ++ [.event s.tabs.length (.created e.id e.url)]) = _
    rw [asks_append]
    exact List.append_nil _
  | lined c mem fresh => exact Or.inl (congrArg _ (journal_changeLock s c.request _))
  | queued c mem fresh => exact Or.inl rfl
  | asked c m ready sent => exact Or.inr ⟨c, m, ready, sent, rfl⟩
  | refused c m ready e unsent => exact Or.inl (asks_refused unsent)
  | quit c k d mem waits => exact Or.inl (congrArg _ (journal_quit s c k))
  | retired c mem idle => exact Or.inl (congrArg _ (journal_retire s c))
  | granted c t l k d v mem about waits answered =>
    refine Or.inl ?_
    show Engine.asks ((s.quit c k).journal ++ _) = _
    rw [journal_quit, asks_append]
    exact List.append_nil _

/-- A call that asks gets the highest ticket, and its request is the last. -/
theorem Ordered.asked (h : s.Ordered) (hs : s.Sound) {m : Message} (ready : s.Ready c)
    (sent : ((s.enter c).send (some c.id) m).2 = .ok ()) : (s.asked c m).Ordered := by
  intro x y d k k' hx hy hk
  have hself := lastAsk_self (asks_asked sent)
  have hother : ∀ {z : Call}, z.id ≠ c.id →
      lastAsk z.id (s.asked c m).journal = lastAsk z.id s.journal := fun hne =>
    lastAsk_other (asks_asked sent) hne
  rw [view_asked s ready m] at hx hy
  rcases (View.Sound.waits_enter hs ready.mem).mp hx with ⟨hx, hxc⟩ | ⟨rfl, hd, hkx⟩ <;>
    rcases (View.Sound.waits_enter hs ready.mem).mp hy with ⟨hy, hyc⟩ | ⟨rfl, hd', hky⟩
  · rw [hother hxc, hother hyc]
    exact h x y d k k' hx hy hk
  · show _ < lastAsk c.id _
    rw [hother hxc, hself]
    exact Nat.lt_succ_of_le (lastAsk_le _ _)
  · -- no ticket that is given out is above the next one
    obtain ⟨r, hr, _⟩ := hs.seat y d k' hy
    have hbelow := (hs.boards d).below k' r hr
    rw [hkx] at hk
    rw [hd] at hbelow
    exact absurd hbelow (Nat.lt_asymm hk)
  · rw [hkx, hky] at hk
    exact absurd hk (Nat.lt_irrefl _)

theorem Change.ordered (h : Change s s') (hs : s.Sound) (ho : s.Ordered) : s'.Ordered := by
  rcases h.asks with same | ⟨c, m, ready, sent, rfl⟩
  · intro x y d k k' hx hy hk
    rw [lastAsk_of_asks_eq same, lastAsk_of_asks_eq same]
    exact ho x y d k k' ((ReplyFreeMove.change h).waits_old hs same hx) ((ReplyFreeMove.change h).waits_old hs same hy) hk
  · exact ho.asked hs ready sent

theorem ReplyFreeMove.ordered (h : ReplyFreeMove s s') (hs : s.Sound) (ho : s.Ordered) : s'.Ordered := by
  have silent : asks s'.journal = asks s.journal → s'.Ordered := by
    intro same x y d k k' hx hy hk
    rw [lastAsk_of_asks_eq same, lastAsk_of_asks_eq same]
    exact ho x y d k k' (h.waits_old hs same hx) (h.waits_old hs same hy) hk
  cases h with
  | change h => exact h.ordered hs ho
  | _ => exact silent rfl

theorem Answer.ordered (h : Answer s d command s') (ho : s.Ordered) : s'.Ordered :=
  ho.of_eq h.calls (by cases h <;> rfl)

theorem EndFreeMove.ordered (h : EndFreeMove s s') (hs : s.Sound) (ho : s.Ordered) : s'.Ordered := by
  cases h with
  | bypassFree h =>
    cases h with
    | replyFree h => exact h.ordered hs ho
    | answer h routed => exact h.ordered ho
  | handed h => exact h.ordered ho
  | dropped => exact ho

theorem Parts.asks_eq (h : Parts s s') : asks s'.journal = asks s.journal := by
  obtain ⟨news, hj, parting⟩ := h
  have hnone : asks news = [] := asks_eq_nil_iff.mpr fun _ _ he => by cases parting _ he
  rw [hj, asks_append, hnone, List.append_nil]

theorem Ordered.close (ho : s.Ordered) : s.close.1.Ordered :=
  ho.of_eq (calls_close s) (Parts.close s).asks_eq

theorem Ordered.perform (ho : s.Ordered) (duty : Duty) : (s.perform duty).1.Ordered :=
  ho.of_eq (calls_perform s duty) (Parts.perform s duty).asks_eq

theorem Moves.ordered (h : Moves s s') (hs : s.Sound) (ho : s.Ordered) : s'.Ordered := by
  induction h with
  | refl => exact ho
  | tail steps step ih =>
    cases step with
    | endFree h => exact h.ordered (Moves.sound steps hs) ih
    | performed duty => exact ih.perform duty
    | closed => exact ih.close

theorem Sound.ordered_run (hs : s.Sound) (ho : s.Ordered) (actions : List Action) :
    (s.run actions).Ordered := by
  induction actions generalizing s with
  | nil => exact ho
  | cons a rest ih => exact ih (hs.act a) ((hs.moves_act a).ordered hs ho)

/-! ### Who hears a reply -/

/-- A call waits at a desk for the reply to a command, and has heard nothing. -/
def Expects (s : State) (c : Call) (d : Desk) (command : String) : Prop :=
  ∃ k, s.view.Waits c d k ∧ c.request.command = command ∧ (s.board d).receiver? k = some .waiting

/-- Of the calls that wait at a desk for the reply to a command, the one that asked first. -/
def Foremost (s : State) (c : Call) (d : Desk) (command : String) : Prop :=
  s.Expects c d command ∧
    ∀ x, s.Expects x d command → x ≠ c → lastAsk c.id s.journal < lastAsk x.id s.journal

/-- A call that had heard nothing hears an answer. -/
def Heard (s s' : State) (c : Call) : Prop :=
  ∃ d k, s.view.Waits c d k ∧ (s.board d).receiver? k = some .waiting ∧
    (s'.board d).receiver? k = some (.answered ())

/-- A call with a ticket in the queue of a command waits for that command. -/
theorem Sound.command_eq (hs : s.Sound) (hw : s.view.Waits c d k)
    (hr : (s.board d).receiver? k = some .waiting) (hq : k ∈ (s.board d).queue command) :
    c.request.command = command := by
  obtain ⟨r, hr', hseat⟩ := hs.seat c d k hw
  change (s.board d).receiver? k = some r at hr'
  rw [hr] at hr'
  obtain rfl := Option.some.inj hr'
  exact (hs.boards d).unique _ _ k (hseat rfl) hq

theorem Sound.reached_of_expects (hs : s.Sound) (hw : s.view.Waits c d k)
    (hr : (s.board d).receiver? k = some .waiting) : k ∈ (s.board d).reached c.request.command := by
  obtain ⟨r, hr', hseat⟩ := hs.seat c d k hw
  change (s.board d).receiver? k = some r at hr'
  rw [hr] at hr'
  obtain rfl := Option.some.inj hr'
  exact Pending.mem_reached_of_waiting (hseat rfl) hr

theorem head_le_of_sorted {l : List Ticket} (h : l.Pairwise (· < ·)) {a b : Ticket}
    (ha : l.head? = some a) (hb : b ∈ l) : a = b ∨ a < b := by
  cases l with
  | nil => cases ha
  | cons z l =>
    obtain rfl := Option.some.inj ha
    rcases List.mem_cons.mp hb with rfl | hb
    · exact Or.inl rfl
    · exact Or.inr ((List.pairwise_cons.mp h).1 b hb)

theorem Sound.sorted_reached (hs : s.Sound) (d : Desk) (command : String) :
    ((s.board d).reached command).Pairwise (· < ·) :=
  ((hs.boards d).sorted command).sublist (Pending.reached_suffix _ _).sublist

/-- The first that a reply reaches is the one that asked first. -/
theorem Sound.foremost_of_head (hs : s.Sound) (ho : s.Ordered) (hw : s.view.Waits c d k)
    (hk : ((s.board d).reached command).head? = some k) : s.Foremost c d command := by
  have hwait := Pending.waiting_of_head_reached hk
  have hq : k ∈ (s.board d).queue command :=
    (Pending.reached_suffix _ _).subset (List.mem_of_mem_head? hk)
  refine ⟨⟨k, hw, hs.command_eq hw hwait hq, hwait⟩, ?_⟩
  rintro x ⟨kx, hxw, rfl, hxr⟩ hne
  rcases head_le_of_sorted (hs.sorted_reached d _) hk (hs.reached_of_expects hxw hxr) with rfl | hlt
  · exact absurd (View.Sound.apart hs x c d k hxw hw) hne
  · exact ho c x d k kx hw hxw hlt

/-- Where somebody waits, a reply reaches somebody. -/
theorem Sound.exists_head (hs : s.Sound) (h : s.Expects x d command) :
    ∃ c k, s.view.Waits c d k ∧ ((s.board d).reached command).head? = some k := by
  obtain ⟨k, hw, rfl, hr⟩ := h
  have hm := hs.reached_of_expects hw hr
  have hk := List.head?_eq_some_head (List.ne_nil_of_mem hm)
  obtain ⟨c, hc⟩ := hs.owned d _ _ (Pending.waiting_of_head_reached hk)
  exact ⟨c, _, hc, hk⟩

/-- Where somebody waits, somebody asked first. -/
theorem Sound.exists_foremost (hs : s.Sound) (ho : s.Ordered) (h : s.Expects x d command) :
    ∃ c, s.Foremost c d command := by
  obtain ⟨c, k, hw, hk⟩ := hs.exists_head h
  exact ⟨c, hs.foremost_of_head ho hw hk⟩

/-- The one that asked first is the first that a reply reaches. -/
theorem Sound.head_of_foremost (hs : s.Sound) (ho : s.Ordered) (h : s.Foremost c d command) :
    ∃ k, s.view.Waits c d k ∧ ((s.board d).reached command).head? = some k := by
  obtain ⟨x, k, hw, hk⟩ := hs.exists_head h.1
  have hx := hs.foremost_of_head ho hw hk
  by_cases hxc : x = c
  · exact ⟨k, hxc ▸ hw, hk⟩
  · exact absurd (h.2 x hx.1 hxc) (Nat.lt_asymm (hx.2 c h.1 (Ne.symm hxc)))

/-- A reply at a desk is heard by the call that asked first of those who wait there for it. -/
theorem Answer.heard (h : Answer s d command s') (hs : s.Sound) (ho : s.Ordered) :
    Heard s s' c ↔ s.Foremost c d command := by
  constructor
  · rintro ⟨d', k, hw, hr, hr'⟩
    rcases h.receiver hr' with hold | ⟨_, rfl, hk⟩
    · change (s.board d').receiver? k = _ at hold
      rw [hr] at hold
      cases hold
    · exact hs.foremost_of_head ho hw hk
  · intro hf
    obtain ⟨k, hw, hk⟩ := hs.head_of_foremost ho hf
    have hwait := Pending.waiting_of_head_reached hk
    refine ⟨d, k, hw, hwait, ?_⟩
    change ((s.view.board d).reached command).head? = some k at hk
    change (s.view.board d).receiver? k = _ at hwait
    show (s'.view.board d).receiver? k = _
    rw [h.view, View.board_setBoard, if_pos rfl, Pending.receiver?_complete, if_pos hk, hwait]
    rfl

end State
end RemoteDebug.Engine
