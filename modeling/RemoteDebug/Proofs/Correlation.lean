import RemoteDebug.Proofs.Matching

/-! Whether the replies of a server meet the requests that they answer.

A run is written down with the number of the request that the server means by each
reply; the server may reply late, and not at all. No number is on the wire, so each
reply goes to the oldest request that still waits where it comes in. The replies meet
their requests exactly if each of them answers that one, which fails as soon as a
call has given up its request, and a later call has asked the same, before the reply
comes in. -/
namespace RemoteDebug.Engine
open Protocol Wire

namespace State

variable {s s' : State} {c : Call} {d : Desk} {k : Ticket} {command : String} {n : Nat}

/-! ### Only replies are heard -/

/-- Nobody hears an answer. -/
def Unheard (s s' : State) : Prop :=
  ∀ d k, (s'.board d).receiver? k = some (.answered ()) → (s.board d).receiver? k = some (.answered ())

theorem unheard_refl (s : State) : Unheard s s := fun _ _ hk => hk

theorem Unheard.not_heard (h : Unheard s s') : ¬ Heard s s' c := by
  rintro ⟨d, k, _, hwait, hanswer⟩
  have hold := h d k hanswer
  rw [hwait] at hold
  cases hold

theorem ReplyFreeMove.unheard (h : ReplyFreeMove s s') (hs : s.Sound) : Unheard s s' := by
  intro d k hk
  rcases h.receiver hs hk with hk | ⟨hr, _⟩ | hr
  · exact hk
  · cases hr
  · cases hr

theorem ReplyFreeMoves.unheard (h : ReplyFreeMoves s s') (hs : s.Sound) : Unheard s s' := by
  induction h with
  | refl => exact unheard_refl s
  | tail steps step ih => exact fun d k hk => ih d k (step.unheard (ReplyFreeMoves.sound steps hs) d k hk)

theorem Sound.unheard_close (hs : s.Sound) : Unheard s s.close.1 := by
  intro d k hk
  rcases hs.receiver_close hk with hk | hr
  · exact hk
  · cases hr

theorem Sound.unheard_perform (hs : s.Sound) (duty : Duty) : Unheard s (s.perform duty).1 := by
  intro d k hk
  rcases hs.receiver_perform duty hk with ⟨hk, _⟩ | hr
  · exact hk
  · cases hr

theorem Sound.unheard_unwind (hs : s.Sound) (duties : List Duty) : Unheard s (s.unwind duties) :=
  (unwind_induction (P := fun x _ => x.Sound ∧ Unheard s x)
    (fun _ duty _ ⟨hx, h⟩ => ⟨hx.perform duty, fun d k hk => h d k (hx.unheard_perform duty d k hk)⟩)
    s duties ⟨hs, unheard_refl s⟩).2

theorem Sound.unheard_fire (hs : s.Sound) (t : Trigger) : Unheard s (s.fire t) := by
  cases t with
  | close => exact fun d k hk => hs.unheard_close d k (hs.close.unheard_unwind _ d k hk)
  | detached t => exact hs.unheard_unwind _
  | terminated id => exact hs.unheard_unwind _

/-- When something ends, nobody hears an answer. -/
theorem Sound.unheard_of_occasion (hs : s.Sound) {a : Action} {o : Occasion}
    (h : s.occasion? a = some o) : Unheard s (s.act a) := by
  have hb := replyFree_before h
  rw [act_of_occasion h]
  exact fun d k hk => hb.unheard hs d k ((hb.sound hs).unheard_fire o.trigger d k hk)

/-! ### The reply that an action brings -/

/-- The desk that the connection hands a message to. -/
def routed? (s : State) (m : Message) : Option (Desk × Message) :=
  if s.listens then (s.addressee? m).map (·, m) else none

/-- The message that an action brings, and the desk that it is for. -/
def arrival? (s : State) : Action → Option (Desk × Message)
  | .deliver m => s.routed? m
  | .receive => s.connection.inbound.head?.bind s.routed?
  | .handle t m => (s.tab? t).map fun _ => (.tab t, m)
  | .separateMessage m => some (.separate, m)
  | _ => none

/-- The reply that an action brings: the desk that it is for, and the command. -/
def reply? (s : State) (a : Action) : Option (Desk × String) :=
  (s.arrival? a).bind fun p => (replyAt? p.2 p.1).map (p.1, ·)

/-- The message that a tab is closed is no reply. -/
theorem tabReply?_of_closing {t : Instance} {m : Message} {o : Occasion} (h : s.closing? t m = some o) :
    tabReply? m = none := by
  unfold closing? at h
  unfold tabReply?
  split at h
  · cases h
  · split at h
    · cases h
    · split at h
      · next hk => rw [hk]
      · cases h

theorem reply?_of_delivering {m : Message} {o : Occasion} (h : s.delivering? m = some o) :
    ((s.routed? m).bind fun p => (replyAt? p.2 p.1).map (p.1, ·)) = none := by
  unfold delivering? at h
  unfold routed? addressee?
  split at h
  · next hl =>
    rw [if_pos hl]
    split at h
    · next t ht =>
      rw [ht]
      show (tabReply? m).map _ = none
      rw [tabReply?_of_closing h]
      rfl
    · cases h
  · cases h

/-- An action by which something ends brings no reply. -/
theorem reply?_of_occasion {a : Action} {o : Occasion} (h : s.occasion? a = some o) :
    s.reply? a = none := by
  cases a with
  | handle t m =>
    simp only [reply?, arrival?]
    cases s.tab? t with
    | none => rfl
    | some tab =>
      show (tabReply? m).map _ = none
      rw [tabReply?_of_closing h]
      rfl
  | deliver m => exact reply?_of_delivering h
  | receive =>
    simp only [occasion?] at h
    simp only [reply?, arrival?]
    split at h
    · cases h
    · next m rest hi =>
      rw [hi]
      exact reply?_of_delivering (s := s.popped rest) h
  | separateMessage m => cases h
  | _ => rfl

theorem reply?_of_replyFree {a : Action} (h : a.isReplyFree = true) : s.reply? a = none := by
  cases a <;> first | rfl | cases h

/-! ### Who hears what an action brings -/

theorem exists_at_desk {reply : Option String} {P : Desk → String → Prop} :
    (∃ d' command, reply.map (d, ·) = some (d', command) ∧ P d' command) ↔
      ∃ command, reply = some command ∧ P d command := by
  constructor
  · rintro ⟨d', command, hr, hp⟩
    obtain ⟨command', hr', he⟩ := Option.map_eq_some_iff.mp hr
    cases he
    exact ⟨command, hr', hp⟩
  · rintro ⟨command, hr, hp⟩
    exact ⟨d, command, by rw [hr]; rfl, hp⟩

/-- What a message brings to a desk is heard by the call that asked first. -/
theorem Brings.heard {reply : Option String} (h : Brings s d reply s') (hs : s.Sound) (ho : s.Ordered) :
    Heard s s' c ↔ ∃ command, reply = some command ∧ s.Foremost c d command := by
  obtain ⟨s₁, es, _, rfl, hr⟩ := h
  have noted : Heard s (s₁.note es) c ↔ Heard s s₁ c := Iff.rfl
  rw [noted]
  cases reply with
  | none =>
    obtain rfl : s₁ = s := hr
    refine iff_of_false (unheard_refl s₁).not_heard ?_
    rintro ⟨_, he, _⟩
    cases he
  | some command =>
    rw [Answer.heard hr hs ho]
    refine ⟨fun hf => ⟨command, rfl, hf⟩, ?_⟩
    rintro ⟨_, he, hf⟩
    cases he
    exact hf

theorem Sound.heard_deliver (hs : s.Sound) (ho : s.Ordered) {m : Message}
    (quiet : s.delivering? m = none) : Heard s (s.deliver m) c ↔
      ∃ d command, ((s.routed? m).bind fun p => (replyAt? p.2 p.1).map (p.1, ·)) = some (d, command) ∧
        s.Foremost c d command := by
  unfold routed?
  by_cases hl : s.listens = true
  · rw [if_pos hl]
    rcases hs.brings_deliver hl quiet with ⟨d, ha, hb, _⟩ | ⟨ha, n, he⟩
    · rw [hb.heard hs ho, ha]
      exact exists_at_desk.symm
    · rw [he, ha, logged_eq]
      have plain : ∀ e ∈ n.toList.map Entry.notice, e.isPlain = true := notices_kind (fun _ => rfl) n
      refine iff_of_false ((changes_note s plain).replyFree.unheard hs).not_heard ?_
      rintro ⟨_, _, hr, _⟩
      cases hr
  · rw [if_neg hl]
    unfold deliver
    rw [if_neg hl]
    refine iff_of_false (unheard_refl s).not_heard ?_
    rintro ⟨_, _, hr, _⟩
    cases hr

/-- What an action brings is heard by the call that asked first of those who wait for it, and nothing
else is heard. -/
theorem Sound.heard_act (hs : s.Sound) (ho : s.Ordered) (a : Action) : Heard s (s.act a) c ↔
    ∃ d command, s.reply? a = some (d, command) ∧ s.Foremost c d command := by
  have unheard : Unheard s (s.act a) → s.reply? a = none → (Heard s (s.act a) c ↔
      ∃ d command, s.reply? a = some (d, command) ∧ s.Foremost c d command) := by
    intro h hr
    rw [hr]
    refine iff_of_false h.not_heard ?_
    rintro ⟨_, _, hr, _⟩
    cases hr
  cases h : s.occasion? a with
  | some o => exact unheard (hs.unheard_of_occasion h) (reply?_of_occasion h)
  | none =>
    by_cases hu : a.isReplyFree = true
    · exact unheard ((hs.replyFree_act hu h).unheard hs) (reply?_of_replyFree hu)
    · cases a with
      | receive =>
        simp only [occasion?] at h
        simp only [State.act, receive, reply?, arrival?] at unheard ⊢
        split
        · next hi =>
          simp only [hi] at unheard ⊢
          exact unheard (unheard_refl s) rfl
        · next m rest hi =>
          simp only [hi] at h
          rw [hi]
          -- taking a message off the connection changes neither who waits nor who is heard
          exact Sound.heard_deliver (s := s.popped rest) ((replyFree_popped s rest).sound hs)
            (ho.of_eq rfl rfl) h
      | deliver m => exact hs.heard_deliver ho h
      | handle t m =>
        cases ht : s.tab? t with
        | none =>
          refine unheard (fun _ _ hk => ?_) (by simp only [reply?, arrival?, ht]; rfl)
          simp only [State.act, tabMessage, ht] at hk
          exact hk
        | some tab =>
          simp only [reply?, arrival?, ht]
          have hb := brings_tabMessage (by rw [ht]; rfl) h
          exact (hb.heard hs ho).trans exists_at_desk.symm
      | separateMessage m =>
        exact ((brings_separateMessage s m).heard hs ho).trans exists_at_desk.symm
      | dropBrowser => exact unheard (unheard_refl s) rfl
      | _ => exact absurd rfl hu

/-! ### Replies and the requests that they answer -/

/-- Somebody waits at a desk for the reply to a command, and of those who do, the one asked first whose
request has this number. -/
def Oldest (s : State) (d : Desk) (command : String) (n : Nat) : Prop :=
  ∃ c, s.Expects c d command ∧ lastAsk c.id s.journal = n ∧
    ∀ x, s.Expects x d command → n ≤ lastAsk x.id s.journal

theorem Foremost.oldest (h : s.Foremost c d command) : s.Oldest d command (lastAsk c.id s.journal) := by
  refine ⟨c, h.1, rfl, fun x hx => ?_⟩
  by_cases hxc : x = c
  · exact Nat.le_of_eq (by rw [hxc])
  · exact Nat.le_of_lt (h.2 x hx hxc)

theorem Oldest.eq_of_foremost (h : s.Oldest d command n) (hf : s.Foremost c d command) :
    lastAsk c.id s.journal = n := by
  obtain ⟨y, hy, hyn, hmin⟩ := h
  by_cases hyc : y = c
  · rw [← hyc]
    exact hyn
  · exact absurd (hf.2 y hy hyc) (Nat.not_lt.mpr (hyn ▸ hmin c hf.1))

/-- Only the call whose request has this number hears an answer by an action. -/
def Meets (s : State) (a : Action) (n : Nat) : Prop :=
  ∀ c, Heard s (s.act a) c → lastAsk c.id s.journal = n

/-- The reply that an action brings answers the oldest request that waits for it, if one does. -/
def InTurn (s : State) (a : Action) (n : Nat) : Prop :=
  ∀ d command, s.reply? a = some (d, command) → (∃ x, s.Expects x d command) → s.Oldest d command n

theorem Sound.meets_iff_inTurn (hs : s.Sound) (ho : s.Ordered) (a : Action) :
    s.Meets a n ↔ s.InTurn a n := by
  constructor
  · rintro h d command hr ⟨x, hx⟩
    obtain ⟨c, hf⟩ := hs.exists_foremost ho hx
    have heard : Heard s (s.act a) c := (hs.heard_act ho a).mpr ⟨d, command, hr, hf⟩
    rw [← h c heard]
    exact hf.oldest
  · intro h c hc
    obtain ⟨d, command, hr, hf⟩ := (hs.heard_act ho a).mp hc
    exact (h d command hr ⟨c, hf.1⟩).eq_of_foremost hf

/-- Along a run, with the number of the request that the server means by each reply. -/
def Always (P : State → Action → Nat → Prop) (s : State) : List (Action × Nat) → Prop
  | [] => True
  | (a, n) :: rest => P s a n ∧ (s.act a).Always P rest

theorem always_append (P : State → Action → Nat → Prop) (s : State) (a b : List (Action × Nat)) :
    s.Always P (a ++ b) ↔ s.Always P a ∧ (s.run (a.map (·.1))).Always P b := by
  induction a generalizing s with
  | nil => exact (and_iff_right trivial).symm
  | cons step rest ih =>
    exact (and_congr Iff.rfl (ih (s.act step.1))).trans and_assoc.symm

theorem Sound.always_meets_iff (hs : s.Sound) (ho : s.Ordered) (steps : List (Action × Nat)) :
    s.Always Meets steps ↔ s.Always InTurn steps := by
  induction steps generalizing s with
  | nil => exact Iff.rfl
  | cons step rest ih =>
    obtain ⟨a, n⟩ := step
    exact and_congr (hs.meets_iff_inTurn ho a) (ih (hs.act a) ((hs.moves_act a).ordered hs ho))

theorem ordered_initial (config : Config) (restartable : Bool) (rules : List (String × Json)) :
    (initial config restartable rules).Ordered := by
  rintro x y d k k' ⟨hx, _⟩
  cases hx

/-- Each reply of a run meets the request that it answers exactly if each answers the oldest
request of those still waiting for such a reply where it comes in, unless none is. -/
theorem replies_meet_their_requests_iff (config : Config) (restartable : Bool)
    (rules : List (String × Json)) (steps : List (Action × Nat)) :
    (initial config restartable rules).Always Meets steps ↔
      (initial config restartable rules).Always InTurn steps :=
  (sound_initial config restartable rules).always_meets_iff (ordered_initial config restartable rules) steps

/-! ### Servers that answer in order -/

/-- What a reply has in common with the request that it answers: the tool, the destination and the
command. -/
abbrev Topic := String × Option String × Option String

/-- The topics of the requests that went out. -/
def topics (es : List Entry) : List Topic :=
  es.filterMap fun
    | .sent (some _) m => some (m.tool, m.destination, m.command?)
    | _ => none

/-- The topic of the reply that an action brings. -/
def topic? (s : State) (a : Action) : Option Topic :=
  (s.arrival? a).bind fun p => (replyAt? p.2 p.1).map fun command => (p.2.tool, p.2.destination, some command)

/-- The server answers each request at most once, and the requests of one topic in their order; the
past lists the replies so far. -/
def orderly (s : State) (past : List (Topic × Nat)) : List (Action × Nat) → Bool
  | [] => true
  | (a, n) :: rest =>
    ((s.topic? a).all fun topic => 0 < n && (topics s.journal)[n - 1]? == some topic &&
        past.all fun p => p.1 != topic || p.2 < n) &&
      (s.act a).orderly ((s.topic? a).toList.map (·, n) ++ past) rest

/-- The rules of a server that grants the version and leaves everything else for later. -/
def versionOnly : List (String × Json) :=
  [("version", .ofFields [("command", .str "version"), ("result", .ofNat 0), ("data", .str "0.1")])]

/-- A list of tabs is asked for, the wait times out, and a list is asked for again. -/
def askedTwice : List (Action × Nat) :=
  [(.start 0 .connect, 0), (.resume 0, 0), (.receive, 1), (.resume 0, 0),
    (.start 1 .tabs, 0), (.resume 1, 0), (.advance 3000, 0), (.resume 1, 0),
    (.start 2 .tabs, 0), (.resume 2, 0)]

/-- The reply with one tab. -/
def tabsReply : Message :=
  .forService .devToolsService
    (.ofFields [("command", .str "list_tabs"), ("result", .ofNat 0),
      ("data", .arr [.arr [.ofNat 1, .str "a"]])])

/-- The late reply to a request that was given up is heard by the next call that asked the same. -/
theorem late_reply_meets_next_request : ¬ ∀ config restartable rules steps,
    (initial config restartable rules).orderly [] steps = true →
      (initial config restartable rules).Always Meets steps := by
  intro h
  have hrun := h {} false versionOnly (askedTwice ++ [(.deliver tabsReply, 2)]) (by decide +kernel)
  have hlast := ((always_append _ _ _ _).mp hrun).2.1
  -- the third request is that of the call that hears the reply to the second
  have hthird := hlast ⟨2, .tabs, .awaiting 3 6000⟩
    ⟨.session, 3, ⟨by decide +kernel, rfl, 6000, rfl⟩, by rfl, by rfl⟩
  exact absurd hthird (by decide +kernel)

end State
end RemoteDebug.Engine
