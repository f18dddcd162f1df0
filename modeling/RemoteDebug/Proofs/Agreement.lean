import RemoteDebug.Proofs.Server

/-! Whether a session and its server agree on what is attached.

Where the server sets the bit of a tab it owes one OK for it. That OK, or the call that has heard it,
or the tab that the call has attached, stands for the bit: there is never more than one of them for an
id, and the bit is set as long as there is one. A detach takes the bit and what stands for it away at
once, unless the session gives the detach up: then its tab stays attached, and the late OK ends
nothing. -/
namespace RemoteDebug.Engine
open Protocol Wire

theorem Call.exchange?_eq {c : Call} {h : Handshake} {t : Instance} :
    c.exchange? = some (h, t) ↔ c.request.handshake? = some (h, t) ∧ ∃ k d, c.point = .awaiting k d := by
  unfold Call.exchange?
  split
  · next k d hp => exact ⟨fun hr => ⟨hr, k, d, hp⟩, And.left⟩
  · next hp =>
    refine ⟨fun h => (by cases h), ?_⟩
    rintro ⟨_, k, d, h⟩
    exact absurd h (hp k d)

theorem Request.eq_detach {r : Request} {t : Instance} (h : r.handshake? = some (.detach, t)) :
    r = .detach t := by
  unfold Request.handshake? at h
  split at h <;> cases h
  rfl

namespace State

variable {s s' : State} {c x : Call} {t : Instance} {a : Action} {id : TabId} {v : Server} {w : Verdict}

/-! ### A detach under way -/

/-- A call waits for a detach of the tab. -/
def Leaving (s : State) (t : Instance) : Prop := ∃ c ∈ s.calls, c.exchange? = some (.detach, t)

/-- The calls that wait for a detach of the tab have heard that it is granted, if anything. -/
def Released (s : State) (t : Instance) : Prop := ∀ c ∈ s.calls, c.request = .detach t →
  ∀ reply, s.Answered t c reply → reply.code.isOk = true

theorem news_eq {es : List Entry} (h : (s.act a).journal = s.journal ++ es) : s.news a = es := by
  unfold news
  rw [h, List.drop_left]

theorem mem_forsakes_of_lapsed {es : List Entry} (h : (s.act a).journal = s.journal ++ es)
    (hl : t ∈ es.filterMap Entry.lapsed?) : t ∈ s.forsakes a := by
  refine List.mem_append_left _ ?_
  rw [news_eq h]
  exact hl

theorem mem_lapsed (hr : c.request = .detach t) (command : String) (nanos : Nat) (es : List Entry) :
    t ∈ (es ++ [Entry.finished c.id c.request
      (.handshake (.error (.transport (.timeout (.reply command nanos)))))]).filterMap Entry.lapsed? := by
  rw [List.filterMap_append, hr]
  exact List.mem_append_right _ (List.mem_singleton.mpr rfl)

theorem Sound.act_resume (hs : s.Sound) (hc : c ∈ s.calls) : s.act (.resume c.id) = s.resume c := by
  simp only [State.act, hs.call?_eq hc]

theorem Sound.not_grants (hs : s.Sound) (hc : c ∈ s.calls) (h : ¬ c.request.Seeks t) :
    ¬ s.Grants t (.resume c.id) := by
  rintro ⟨x, hx, he⟩
  rw [← hs.call_eq hc hx.mem (Action.resume.inj he)] at hx
  exact h hx.seeks

/-- A detach that has heard its grant ends the attachment of its tab when it goes on. -/
theorem Sound.ends_of_granted (hs : s.Sound) {k : Ticket} {d : Nat} {reply : DebuggerReply}
    (hc : c ∈ s.calls) (hr : c.request = .detach t) (hp : c.point = .awaiting k d)
    (heard : (s.tabTable t).receiver? k = some (.answered reply)) (ok : reply.code.isOk = true) :
    s.Ends t (.resume c.id) := by
  refine ⟨⟨s.quit c k, .detached t, [.finished c.id c.request (.handshake (.ok ()))]⟩, ?_, Or.inl rfl⟩
  simp only [occasion?, hs.call?_eq hc, Option.bind_some, ousting?, hp, ousts?, hr, heard, ok, if_true,
    Option.map_some]

/-- How a wait for a detach of a tab goes on: it lasts, or the tab is not attached any more, or its
time is over. -/
theorem Sound.leaving_resume (hs : s.Sound) (parted : s.Parted t) (released : s.Released t)
    (hc : c ∈ s.calls) (he : c.exchange? = some (.detach, t)) : (s.act (.resume c.id)).Leaving t ∨
      (s.act (.resume c.id)).isAttached t = false ∨ t ∈ s.forsakes (.resume c.id) := by
  obtain ⟨hh, k, d, hp⟩ := Call.exchange?_eq.mp he
  have hr := Request.eq_detach hh
  have about : c.request.tab? = some t := by rw [hr]; rfl
  have hnot : ¬ s.Grants t (.resume c.id) := hs.not_grants hc fun h => by rw [hr] at h; cases h
  have hact : s.act (.resume c.id) = s.poll c k d := by
    rw [hs.act_resume hc]
    unfold resume
    rw [hp]
  cases hw : s.waitEnd? (s.tabTable t) c.request k d with
  | none =>
    refine Or.inl ?_
    rw [hact, poll_of_tab about, hw]
    exact ⟨c, hc, he⟩
  | some r =>
    have hpoll : s.poll c k d = (s.quit c k).handshakeEnds c t r := by
      rw [poll_of_tab about, hw]
      rfl
    have hattached : ¬ (s.isAttached t = true ∧ ¬ s.Ends t (.resume c.id)) →
        (s.act (.resume c.id)).isAttached t = false := by
      intro h
      refine Bool.eq_false_iff.mpr fun ha => ?_
      exact ((hs.attached_act _).mp ha).elim hnot h
    unfold waitEnd? at hw
    split at hw
    · next reply heard =>
      have hends := hs.ends_of_granted hc hr hp heard (released c hc hr reply ⟨k, d, hp, heard⟩)
      exact Or.inr (Or.inl (hattached fun h => h.2 hends))
    · next failed =>
      refine Or.inr (Or.inl (hattached fun h => ?_))
      have hgone := parted ⟨c, k, waits_of_point hc hp |> fun hw => by rwa [hr] at hw, hh, by
        show (s.tabTable t).blank.receiver? k = _
        rw [Pending.receiver?_blank, failed]
        rfl⟩
      rw [hgone] at h
      cases h.1
    · split at hw
      · obtain rfl := Option.some.inj hw
        have hlapsed := mem_lapsed hr c.request.command (s.allowance c.request) []
        refine Or.inr (Or.inr (mem_forsakes_of_lapsed ?_ hlapsed))
        rw [hact, hpoll, handshakeEnds_error]
        show (s.quit c k).journal ++ _ = _
        rw [journal_quit]
        rfl
      · cases hw

/-- A detach that is under way stays so as long as its tab stays attached and it is not given up. -/
theorem Sound.leaving_act (hs : s.Sound) (parted : s.Parted t) (released : s.Released t)
    (kept : t ∉ s.forsakes a) (hl : s.Leaving t) (ha : (s.act a).isAttached t = true) :
    (s.act a).Leaving t := by
  obtain ⟨c, hc, he⟩ := hl
  by_cases resumed : a = .resume c.id
  · subst resumed
    rcases hs.leaving_resume parted released hc he with h | h | h
    · exact h
    · rw [h] at ha
      cases ha
    · exact absurd h kept
  · by_cases cancelled : a = .cancel c.id
    · subst cancelled
      refine absurd (List.mem_append_right _ ?_) kept
      simp only [hs.call?_eq hc, Option.bind_some, he]
      exact List.mem_singleton.mpr rfl
    · exact ⟨c, mem_act_of_other hc resumed cancelled, he⟩

/-! ### What stands for the bit of a tab -/

/-- The attach of the tab is granted: a call has heard so, or the tab is attached and no detach of it is
under way. -/
def Secures (s : State) (t : Instance) : Prop :=
  (∃ c, s.Accepted t c) ∨ (s.isAttached t = true ∧ ¬ s.Leaving t)

theorem fair_handle (fair : a.isFair = true) : ∀ u m, a = .handle u m → tabReply? m = none := by
  rintro u m rfl
  exact Option.isNone_iff_eq_none.mp fair

/-- What a call comes to hear of an exchange with a tab is the reply that has come in. -/
theorem Sound.verdict_of_answered (hs : s.Sound) (fair : a.isFair = true) {h : Handshake}
    {reply : DebuggerReply} (hx : x ∈ (s.act a).calls) (hr : x.request.handshake? = some (h, t))
    (ha : (s.act a).Answered t x reply) : x ∈ s.calls ∧ (s.Answered t x reply ∨
      ∃ id, s.registered? id = some t ∧
        (s.incoming? a).bind verdictIn? = some ⟨⟨id, h⟩, reply.code.isOk⟩) := by
  obtain ⟨hm, hold⟩ := hs.answered_act (fair_handle fair) hx (Request.tab?_of_handshake? hr) ha
  refine ⟨hm, hold.imp_right ?_⟩
  rintro ⟨m, hin, ⟨id, htab, hreg⟩, hj, hcommand⟩
  refine ⟨id, hreg, ?_⟩
  rw [hin, Option.bind_some]
  exact verdictIn?_eq htab hj (hcommand.symm.trans (Request.command_of_handshake hr))

/-- Only the reply to an attach that has come in makes a tab stand for its bit. -/
theorem Sound.secures_act (hs : s.Sound) (parted : s.Parted t) (released : s.Released t)
    (fair : a.isFair = true) (kept : t ∉ s.forsakes a) (h : (s.act a).Secures t) :
    s.Secures t ∨ ∃ id, s.registered? id = some t ∧
      (s.incoming? a).bind verdictIn? = some ⟨⟨id, .attach⟩, true⟩ := by
  rcases h with ⟨c, hc⟩ | ⟨ha, hl⟩
  · obtain ⟨reply, heard, ok⟩ := hc.heard
    obtain ⟨hm, hold | ⟨id, hreg, hv⟩⟩ := hs.verdict_of_answered fair hc.mem hc.seeks heard
    · exact Or.inl (Or.inl ⟨c, hm, hc.seeks, reply, hold, ok⟩)
    · rw [ok] at hv
      exact Or.inr ⟨id, hreg, hv⟩
  · refine Or.inl ?_
    rcases (hs.attached_act a).mp ha with ⟨c, hc, _⟩ | ⟨hold, _⟩
    · exact Or.inl ⟨c, hc⟩
    · exact Or.inr ⟨hold, fun h => hl (hs.leaving_act parted released kept h ha)⟩

/-! ### A detach that is asked for -/

theorem not_mute_of_sent {m : Message} {rest : List Entry}
    (h : s'.journal = s.journal ++ .sent (some c.id) m :: rest) : ¬ Mute s s' := by
  rintro ⟨es, hj, hn⟩
  rw [hj] at h
  obtain rfl := List.append_cancel_left h
  cases hn

/-- A detach that begins and sends something asks. -/
theorem Poised.detach_asks (p : s.Poised c) (hs : s.Sound) (hr : c.request = .detach t)
    (loud : ¬ Mute s (s.begin c)) :
    ∃ m, s.Ready c ∧ s.begin c = s.ask c m ∧ ((s.enter c).send (some c.id) m).2 = .ok () := by
  have he : s.begin c = s.beginDetach c t := by
    unfold begin
    rw [hr]
  rw [he] at loud ⊢
  rcases beginDetach_asks_or_leaves s c t with ⟨tab, known, attached, h⟩ | ⟨e, h⟩ <;> rw [h] at loud ⊢
  · have fits : s.Fits c.request := by
      rw [hr]
      show s.isAttached t = true
      unfold isAttached
      rw [known]
      exact attached
    rcases deeds_ask s c (DebuggerCommand.detach.toMessage tab.id) with deeds | ⟨sent, _⟩
    · exact absurd deeds.mute loud
    · exact ⟨_, p.ready hs fits, rfl, sent⟩
  · exact absurd (deeds_finish s (.failed c e)).mute loud

/-- A detach that goes on and sends something has its turn then, and asks. -/
theorem Sound.detach_asks (hs : s.Sound) (hc : c ∈ s.calls) (hr : c.request = .detach t)
    (loud : ¬ Mute s (s.resume c)) : ∃ (y : State) (m : Message), y.Sound ∧ y.Ready c ∧
      y.calls = s.calls ∧ y.journal = s.journal ∧ y.isAttached t = s.isAttached t ∧
      s.resume c = y.ask c m ∧ ((y.enter c).send (some c.id) m).2 = .ok () := by
  have admits : s.Admits c := by
    by_contra h
    exact loud (mute_resume h)
  have hjournal := journal_lined s c
  rw [resume_of_admits admits] at loud ⊢
  obtain ⟨m, ready, he, sent⟩ := (hs.poised_of_admits hc admits).detach_asks (hs.lined hc) hr
    fun h => loud ((Mute.of_eq hjournal).trans h)
  exact ⟨_, m, hs.lined hc, ready, calls_lined s c, hjournal, (Beside.lined t s c).attached, he, sent⟩

/-- Once it has asked, it waits for the detach, or its time is over at once. -/
theorem Sound.leaving_ask (hs : s.Sound) (ready : s.Ready c) (hr : c.request = .detach t) {m : Message}
    (sent : ((s.enter c).send (some c.id) m).2 = .ok ()) : (s.ask c m).Leaving t ∨
      ∃ es, (s.ask c m).journal = s.journal ++ es ∧ t ∈ es.filterMap Entry.lapsed? := by
  have about : c.request.tab? = some t := by rw [hr]; rfl
  have hjournal := journal_asked s c m
  rw [sent] at hjournal
  rw [ask_of_ok sent, poll_of_tab about]
  cases hw : (s.asked c m).waitEnd? ((s.asked c m).tabTable t) c.request (s.nextTicket c.request)
      (s.deadlineOf c.request) with
  | none =>
    refine Or.inl ⟨s.seated c, (hs.waits_seated ready m).1, Call.exchange?_eq.mpr ⟨?_, _, _, rfl⟩⟩
    show c.request.handshake? = _
    rw [hr]
    rfl
  | some r =>
    refine Or.inr ?_
    unfold waitEnd? at hw
    rw [hs.waiting_at_tab ready m about] at hw
    dsimp only at hw
    split at hw
    · obtain rfl := Option.some.inj hw
      refine ⟨_, ?_, mem_lapsed hr c.request.command ((s.asked c m).allowance c.request)
        [.sent (some c.id) m]⟩
      rw [Option.map_some, Option.getD_some, handshakeEnds_error]
      show ((s.asked c m).quit c _).journal ++ _ = _
      rw [journal_quit, hjournal, List.append_assoc]
      rfl
    · cases hw

/-- A detach that is asked for takes away what stood for the bit of its tab, if it is not given up. -/
theorem Sound.detach_asked (hs : s.Sound) (hc : c ∈ s.calls) (hr : c.request = .detach t)
    (loud : ¬ Mute s (s.resume c)) (kept : t ∉ s.forsakes (.resume c.id)) :
    s.Secures t ∧ ¬ (s.act (.resume c.id)).Secures t := by
  obtain ⟨y, m, hy, ready, hcalls, hjournal, hattached, he, sent⟩ := hs.detach_asks hc hr loud
  have hact : s.act (.resume c.id) = y.ask c m := (hs.act_resume hc).trans he
  -- whoever waits for an exchange with the tab would hold it too
  have hidle : ∀ x ∈ s.calls, x.request.tab? = some t → x.Idle := by
    intro x hx about k d hp
    have hx' : x ∈ y.calls := hcalls ▸ hx
    have hsame := hy.exclusive hx' ready.mem (hy.holder x _ k (waits_of_point hx' hp))
      ((hy.holds ready.mem).mp ready.holds) (Request.need?_of_tab? about)
      (Request.need?_of_tab? (by rw [hr]; rfl))
    exact ready.idle k d (hsame ▸ hp)
  have ha : s.isAttached t = true := by
    have hf := ready.fits
    rw [hr] at hf
    rw [← hattached]
    exact hf
  refine ⟨Or.inr ⟨ha, ?_⟩, ?_⟩
  · rintro ⟨x, hx, hxe⟩
    obtain ⟨hh, k, d, hp⟩ := Call.exchange?_eq.mp hxe
    exact hidle x hx (Request.tab?_of_handshake? hh) k d hp
  · rintro (⟨x, hxa⟩ | ⟨_, hl⟩)
    · obtain ⟨reply, heard, _⟩ := hxa.heard
      obtain ⟨hx, hold | ⟨_, _, hv⟩⟩ := hs.verdict_of_answered rfl hxa.mem hxa.seeks heard
      · obtain ⟨k, d, hp, _⟩ := hold
        exact hidle x hx (Request.tab?_of_handshake? hxa.seeks) k d hp
      · cases hv
    · rw [hact] at hl
      rcases hy.leaving_ask ready hr sent with h | ⟨es, hj, hm⟩
      · exact hl h
      · exact kept (mem_forsakes_of_lapsed (by rw [hact, hj, hjournal]) hm)

/-! ### Agreement -/

/-- What stands for the bit of an id: the OK on its way, or a tab whose attach is granted. -/
def Stands (s : State) (v : Server) (id : TabId) : Option Instance → Prop
  | none => ⟨⟨id, .attach⟩, true⟩ ∈ v.owed
  | some t => s.view.ident t = some id ∧ s.Secures t

structure Agreed (s : State) (v : Server) (id : TabId) : Prop where
  one : ∀ o o', s.Stands v id o → s.Stands v id o' → o = o'
  set : ∀ o, s.Stands v id o → v.attached id = true
  single : v.owed.count ⟨⟨id, .attach⟩, true⟩ ≤ 1
  /-- No detach is refused. -/
  granted : ⟨⟨id, .detach⟩, false⟩ ∉ v.owed
  released : ∀ t, s.view.ident t = some id → s.Released t

variable {v' : Server}

/-- Where nothing new stands for the bit, and the bit stays. -/
theorem Agreed.of_fewer (h : Agreed s v id) (stands : ∀ o, s'.Stands v' id o → s.Stands v id o)
    (set : v'.attached id = v.attached id) (single : v'.owed.count ⟨⟨id, .attach⟩, true⟩ ≤ 1)
    (granted : ⟨⟨id, .detach⟩, false⟩ ∉ v'.owed)
    (released : ∀ t, s'.view.ident t = some id → s'.Released t) : Agreed s' v' id where
  one := fun o o' ho ho' => h.one o o' (stands o ho) (stands o' ho')
  set := fun o ho => set.trans (h.set o (stands o ho))
  single := single
  granted := granted
  released := released

/-- A reply arrives: if it is the OK that stood for the bit, the tab that is registered stands for it
now. -/
theorem Agreed.hand (h : Agreed s v id) (hm : w ∈ v.owed)
    (secures : ∀ t, s'.view.ident t = some id → s'.Secures t →
      s.Stands v id (some t) ∨ (s.registered? id = some t ∧ w = ⟨⟨id, .attach⟩, true⟩))
    (released : ∀ t, s'.view.ident t = some id → s'.Released t) :
    Agreed s' { v with owed := v.owed.erase w } id := by
  have hsingle : (v.owed.erase w).count ⟨⟨id, .attach⟩, true⟩ ≤ 1 :=
    (List.erase_sublist.count_le _).trans h.single
  have hgranted : ⟨⟨id, .detach⟩, false⟩ ∉ v.owed.erase w := fun hw =>
    h.granted (List.mem_of_mem_erase hw)
  by_cases hw : w = ⟨⟨id, .attach⟩, true⟩
  · subst hw
    have hone : s.Stands v id none := hm
    have hnew : ∀ o, s'.Stands { v with owed := v.owed.erase ⟨⟨id, .attach⟩, true⟩ } id o →
        ∃ t, o = some t ∧ s.registered? id = some t := by
      intro o ho
      cases o with
      | none =>
        have hpos : 0 < (v.owed.erase ⟨⟨id, .attach⟩, true⟩).count ⟨⟨id, .attach⟩, true⟩ :=
          List.count_pos_iff.mpr ho
        rw [List.count_erase_self] at hpos
        have := h.single
        omega
      | some t =>
        rcases secures t ho.1 ho.2 with hold | ⟨hreg, _⟩
        · cases h.one _ _ hone hold
        · exact ⟨t, rfl, hreg⟩
    refine ⟨fun o o' ho ho' => ?_, fun _ _ => h.set none hone, hsingle, hgranted, released⟩
    obtain ⟨t, rfl, ht⟩ := hnew o ho
    obtain ⟨t', rfl, ht'⟩ := hnew o' ho'
    rw [← ht, ht']
  · refine h.of_fewer (fun o ho => ?_) rfl hsingle hgranted released
    cases o with
    | none => exact List.mem_of_mem_erase ho
    | some t => exact (secures t ho.1 ho.2).resolve_right fun hn => hw hn.2

/-- The server answers a demand for another id. -/
theorem Agreed.answer_other (h : Agreed s v id) {d : Demand} (hid : d.id ≠ id)
    (secures : ∀ t, s'.view.ident t = some id → s'.Secures t → s.Stands v id (some t))
    (released : ∀ t, s'.view.ident t = some id → s'.Released t) : Agreed s' (v.answer d) id := by
  have hne : ∀ k b, (⟨⟨id, k⟩, b⟩ : Verdict) ≠ ⟨d, v.attached d.id != d.handshake.wants⟩ :=
    fun _ _ he => hid (congrArg (·.demand.id) he).symm
  have hother : ∀ k b, (⟨⟨id, k⟩, b⟩ : Verdict) ∈ (v.answer d).owed → ⟨⟨id, k⟩, b⟩ ∈ v.owed :=
    fun k b hm => (Server.mem_owed_answer.mp hm).resolve_right (hne k b)
  refine h.of_fewer (fun o ho => ?_) (Function.update_of_ne (Ne.symm hid) _ _) ?_
    (fun hm => h.granted (hother _ _ hm)) released
  · cases o with
    | none => exact hother _ _ ho
    | some t => exact secures t ho.1 ho.2
  · rw [Server.count_owed_answer (hne _ _)]
    exact h.single

/-- The server answers an attach: it refuses it, or nothing stands for the bit yet, and it owes the OK. -/
theorem Agreed.answer_attach (h : Agreed s v id)
    (secures : ∀ t, s'.view.ident t = some id → s'.Secures t → s.Stands v id (some t))
    (released : ∀ t, s'.view.ident t = some id → s'.Released t) :
    Agreed s' (v.answer ⟨id, .attach⟩) id := by
  have hattached : (v.answer ⟨id, .attach⟩).attached id = true := Function.update_self ..
  have hgranted : ⟨⟨id, .detach⟩, false⟩ ∉ (v.answer ⟨id, .attach⟩).owed := by
    rw [Server.mem_owed_answer]
    rintro (hm | he)
    · exact h.granted hm
    · cases he
  cases hset : v.attached id with
  | true =>
    have hrefused : (⟨⟨id, .attach⟩, true⟩ : Verdict) ≠ ⟨⟨id, .attach⟩, v.attached id != true⟩ := by
      rw [hset]
      exact fun he => by cases he
    refine h.of_fewer (fun o ho => ?_) (hattached.trans hset.symm) ?_ hgranted released
    · cases o with
      | none => exact (Server.mem_owed_answer.mp ho).resolve_right hrefused
      | some t => exact secures t ho.1 ho.2
    · rw [Server.count_owed_answer hrefused]
      exact h.single
  | false =>
    have howed : (v.answer ⟨id, .attach⟩).owed = v.owed ++ [⟨⟨id, .attach⟩, true⟩] := by
      show v.owed ++ [⟨_, v.attached id != true⟩] = _
      rw [hset]
      rfl
    have hno : ∀ o, ¬ s.Stands v id o := by
      intro o ho
      have hs := h.set o ho
      rw [hset] at hs
      cases hs
    have honly : ∀ o, s'.Stands (v.answer ⟨id, .attach⟩) id o → o = none := by
      intro o ho
      cases o with
      | none => rfl
      | some t => exact absurd (secures t ho.1 ho.2) (hno _)
    refine ⟨fun o o' ho ho' => (honly o ho).trans (honly o' ho').symm, fun _ _ => hattached, ?_, hgranted,
      released⟩
    rw [howed, List.count_append, List.count_eq_zero_of_not_mem (hno none), Nat.zero_add]
    exact Nat.le_of_eq List.count_singleton_self

/-- The server grants a detach that takes away what stood for the bit. -/
theorem Agreed.answer_detach (h : Agreed s v id) {t : Instance} (ht : s.Stands v id (some t))
    (gone : ¬ s'.Secures t)
    (secures : ∀ t, s'.view.ident t = some id → s'.Secures t → s.Stands v id (some t))
    (released : ∀ t, s'.view.ident t = some id → s'.Released t) :
    Agreed s' (v.answer ⟨id, .detach⟩) id := by
  have hattach : ⟨⟨id, .attach⟩, true⟩ ∉ (v.answer ⟨id, .detach⟩).owed := by
    rw [Server.mem_owed_answer]
    rintro (hm | he)
    · cases h.one none (some t) hm ht
    · cases he
  have hno : ∀ o, ¬ s'.Stands (v.answer ⟨id, .detach⟩) id o := by
    intro o ho
    cases o with
    | none => exact hattach ho
    | some u =>
      obtain rfl := Option.some.inj (h.one _ _ (secures u ho.1 ho.2) ht)
      exact gone ho.2
  refine ⟨fun o _ ho => absurd ho (hno o), fun o ho => absurd ho (hno o), ?_, ?_, released⟩
  · rw [List.count_eq_zero_of_not_mem hattach]
    exact Nat.zero_le 1
  · rw [Server.mem_owed_answer]
    rintro (hm | he)
    · exact h.granted hm
    · have hgrant := congrArg Verdict.granted he
      dsimp only at hgrant
      rw [h.set _ ht] at hgrant
      cases hgrant

/-! ### One action -/

theorem Sound.ident_of_secures_act (hs : s.Sound) (fair : a.isFair = true) (h : (s.act a).Secures t) :
    ∃ id, s.view.ident t = some id := by
  have hpresent : ∀ c ∈ s.calls, c.request.Seeks t → ∃ id, s.view.ident t = some id := fun c hc seeks =>
    Option.isSome_iff_exists.mp (hs.present c hc t (Request.tab?_of_handshake? seeks))
  rcases h with ⟨c, hc⟩ | ⟨ha, _⟩
  · obtain ⟨reply, heard, _⟩ := hc.heard
    exact hpresent c (hs.verdict_of_answered fair hc.mem hc.seeks heard).1 hc.seeks
  · rcases (hs.attached_act a).mp ha with ⟨c, hc, _⟩ | ⟨hold, _⟩
    · exact hpresent c hc.mem hc.seeks
    · obtain ⟨tab, _, hid⟩ := ident_of_attached hold
      exact ⟨tab.id, hid⟩

/-- A tab has the id that it will have. -/
theorem Sound.ident_old (hs : s.Sound) (known : ∃ j, s.view.ident t = some j)
    (h : (s.act a).view.ident t = some id) : s.view.ident t = some id := by
  obtain ⟨j, hj⟩ := known
  have hact := hs.ident_act a hj
  rw [h] at hact
  rw [Option.some.inj hact]
  exact hj

variable (hs : s.Sound) (parted : ∀ t, s.Parted t) (h : Agreed s v id) (fair : a.isFair = true)
  (kept : ∀ t ∈ s.forsakes a, s.view.ident t ≠ some id)

include hs parted h fair kept in
theorem Agreed.secures_act (hid : (s.act a).view.ident t = some id) (hk : (s.act a).Secures t) :
    s.Stands v id (some t) ∨ (s.registered? id = some t ∧
      (s.incoming? a).bind verdictIn? = some ⟨⟨id, .attach⟩, true⟩) := by
  have hold := hs.ident_old (hs.ident_of_secures_act fair hk) hid
  rcases hs.secures_act (parted t) (h.released t hold) fair (fun hm => kept t hm hold) hk with
    hk | ⟨j, hreg, hv⟩
  · exact Or.inl ⟨hold, hk⟩
  · have hj := hs.own j t (mem_of_lookup hreg)
    rw [hold] at hj
    obtain rfl := Option.some.inj hj
    exact Or.inr ⟨hreg, hv⟩

include hs h fair in
theorem Agreed.released_act (owed : ∀ w, (s.incoming? a).bind verdictIn? = some w → w ∈ v.owed)
    (hid : (s.act a).view.ident t = some id) : (s.act a).Released t := by
  intro c hc hr reply ha
  obtain ⟨hm, hold | ⟨j, hreg, hv⟩⟩ := hs.verdict_of_answered (t := t) fair hc (by rw [hr]; rfl) ha
  · have hknown := Option.isSome_iff_exists.mp (hs.present c hm t (by rw [hr]; rfl))
    exact h.released t (hs.ident_old hknown hid) c hm hr reply hold
  · have hj := hs.own j t (mem_of_lookup hreg)
    obtain rfl := Option.some.inj ((hs.ident_old ⟨j, hj⟩ hid).symm.trans hj)
    refine Bool.not_eq_false _ |>.mp fun hno => h.granted ?_
    rw [hno] at hv
    exact owed _ hv

include hs h in
/-- A call asks the server for its exchange. -/
theorem Agreed.asked (kept : ∀ t ∈ s.forsakes (.resume c.id), s.view.ident t ≠ some id) (hc : c ∈ s.calls)
    {handshake : Handshake} {j : TabId} (hr : c.request.handshake? = some (handshake, t))
    (hident : s.view.ident t = some j) (loud : ¬ Mute s (s.resume c))
    (secures : ∀ t, (s.act (.resume c.id)).view.ident t = some id → (s.act (.resume c.id)).Secures t →
      s.Stands v id (some t))
    (released : ∀ t, (s.act (.resume c.id)).view.ident t = some id → (s.act (.resume c.id)).Released t) :
    Agreed (s.act (.resume c.id)) (v.answer ⟨j, handshake⟩) id := by
  by_cases hid : j = id
  · subst hid
    cases handshake with
    | attach => exact h.answer_attach secures released
    | detach =>
      obtain ⟨hk, hgone⟩ := hs.detach_asked hc (Request.eq_detach hr) loud fun hm => kept t hm hident
      exact h.answer_detach ⟨hident, hk⟩ hgone secures released
  · exact h.answer_other hid secures released

include hs parted h fair kept in
/-- An action keeps the agreement on an id, if it gives up no detach of a tab of it and the reply that it
brings, if it brings one, was owed. -/
theorem Agreed.act (hand : ((s.incoming? a).bind verdictIn? = none ∧ v' = v) ∨
      ∃ w, (s.incoming? a).bind verdictIn? = some w ∧ w ∈ v.owed ∧
        v' = { v with owed := v.owed.erase w }) :
    Agreed (s.act a) (v'.answers (demands (s.news a))) id := by
  have owed : ∀ w, (s.incoming? a).bind verdictIn? = some w → w ∈ v.owed := by
    intro w hw
    rcases hand with ⟨hn, _⟩ | ⟨w', hw', hm, _⟩
    · rw [hn] at hw
      cases hw
    · rw [hw'] at hw
      exact Option.some.inj hw ▸ hm
  have released : ∀ t, (s.act a).view.ident t = some id → (s.act a).Released t := fun t hid =>
    h.released_act hs fair owed hid
  have secures := fun t hid hk => h.secures_act (t := t) hs parted fair kept hid hk
  have quiet : (s.incoming? a).bind verdictIn? = none → ∀ t, (s.act a).view.ident t = some id →
      (s.act a).Secures t → s.Stands v id (some t) := by
    intro hn t hid hk
    refine (secures t hid hk).resolve_right ?_
    rintro ⟨_, hv⟩
    rw [hn] at hv
    cases hv
  have same : (s.incoming? a).bind verdictIn? = none → Agreed (s.act a) v id := by
    intro hn
    refine h.of_fewer (fun o ho => ?_) rfl h.single h.granted released
    cases o with
    | none => exact ho
    | some t => exact quiet hn t ho.1 ho.2
  rcases mute_or_sent_act s a with ⟨es, hj, hn⟩ | ⟨c, rest, hc, rfl, hj, hrest⟩
  · rw [news_eq hj, demands_of_asks hn]
    show Agreed (s.act a) v' id
    rcases hand with ⟨hn, rfl⟩ | ⟨w, hw, hm, rfl⟩
    · exact same hn
    · refine h.hand hm (fun t hid hk => (secures t hid hk).imp_right ?_) released
      rintro ⟨hreg, hv⟩
      exact ⟨hreg, Option.some.inj (hw.symm.trans hv)⟩
  · have hn : (s.incoming? (.resume c.id)).bind verdictIn? = none := rfl
    obtain rfl : v' = v := by
      rcases hand with ⟨_, hv⟩ | ⟨w, hw, _⟩
      · exact hv
      · cases hw
    have hdemands : demands (s.news (.resume c.id)) = (demandIn? (s.petition c.request)).toList := by
      rw [news_eq hj, demands_sent _ _ hrest]
    rw [hdemands, demandIn?_petition s (hs.hasTab hc)]
    cases hr : c.request.handshake? with
    | none => exact same hn
    | some e =>
      obtain ⟨handshake, t⟩ := e
      obtain ⟨j, hident⟩ := Option.isSome_iff_exists.mp (hs.present c hc t (Request.tab?_of_handshake? hr))
      have loud : ¬ Mute s (s.resume c) := by
        rw [← hs.act_resume hc]
        exact not_mute_of_sent hj
      rw [Option.bind_some, hident]
      exact h.asked hs kept hc hr hident loud (quiet hn) released

/-- An id of which nothing is under way. -/
theorem agreed_of_still (owed : ∀ w ∈ v.owed, w.demand.id ≠ id) (still : s.engages id = false) :
    Agreed s v id := by
  obtain ⟨htabs, hcalls⟩ := Bool.or_eq_false_iff.mp still
  have hexchange : ∀ c ∈ s.calls, ∀ h t, s.view.ident t = some id → c.exchange? ≠ some (h, t) := by
    intro c hc h t hid he
    refine absurd (List.any_eq_true.mpr ⟨c, hc, ?_⟩) (Bool.eq_false_iff.mp hcalls)
    rw [he, Option.bind_some, hid]
    exact beq_self_eq_true _
  have hno : ∀ o, ¬ s.Stands v id o := by
    intro o ho
    cases o with
    | none => exact owed _ ho rfl
    | some t =>
      obtain ⟨hid, ⟨c, hc⟩ | ⟨ha, _⟩⟩ := ho
      · obtain ⟨_, ⟨k, d, hp, _⟩, _⟩ := hc.heard
        exact hexchange c hc.mem .attach t hid (Call.exchange?_eq.mpr ⟨hc.seeks, k, d, hp⟩)
      · obtain ⟨tab, ht, hid'⟩ := ident_of_attached ha
        refine absurd (List.any_eq_true.mpr ⟨tab, List.mem_of_getElem? ht, ?_⟩)
          (Bool.eq_false_iff.mp htabs)
        have hattached : tab.attached = true := by
          unfold isAttached at ha
          rw [ht] at ha
          exact ha
        rw [Option.some.inj (hid'.symm.trans hid), hattached, beq_self_eq_true]
        rfl
  refine ⟨fun o _ ho => absurd ho (hno o), fun o ho => absurd ho (hno o), ?_,
    fun hm => owed _ hm rfl, ?_⟩
  · rw [List.count_eq_zero_of_not_mem fun hm => owed _ hm rfl]
    exact Nat.zero_le 1
  · intro t hid c hc hr reply ⟨k, d, hp, _⟩
    exact absurd (Call.exchange?_eq.mpr ⟨by rw [hr]; rfl, k, d, hp⟩) (hexchange c hc .detach t hid)

end State

/-! ### Runs -/

namespace Joint

open State

variable {j j' : Joint} {id : TabId}

/-- The session and the server agree on every id that is not forsaken. -/
structure Sound (j : Joint) : Prop where
  client : j.client.Sound
  parted : ∀ t, j.client.Parted t
  agreed : ∀ id, id ∉ j.forsaken → Agreed j.client j.server.settled id

theorem agreed_of_still (h : j.stirs id = false) : Agreed j.client j.server.settled id := by
  obtain ⟨hserver, hclient⟩ := Bool.or_eq_false_iff.mp h
  obtain ⟨hasked, howed⟩ := Bool.or_eq_false_iff.mp hserver
  refine State.agreed_of_still (fun w hw he => ?_) hclient
  rcases Server.owed_answers hw with hw | hw
  · exact Bool.eq_false_iff.mp howed (List.any_eq_true.mpr ⟨w, hw, beq_iff_eq.mpr he⟩)
  · exact Bool.eq_false_iff.mp hasked (List.any_eq_true.mpr ⟨w.demand, hw, beq_iff_eq.mpr he⟩)

theorem Sound.turn (hj : j.Sound) {turn : Turn} (h : j.turn? turn = some j') : j'.Sound := by
  cases turn with
  | server =>
    obtain ⟨v, hv, rfl⟩ := Option.map_eq_some_iff.mp h
    refine ⟨hj.client, hj.parted, fun id hid => ?_⟩
    show Agreed j.client v.settled id
    rw [Server.settled_serve hv]
    exact hj.agreed id hid
  | client a =>
    simp only [turn?] at h
    split at h
    · next fair =>
      obtain ⟨v, hv, rfl⟩ := Option.map_eq_some_iff.mp h
      refine ⟨hj.client.act a, fun t => hj.client.parted_act a (hj.parted t), fun id hid => ?_⟩
      dsimp only at hid ⊢
      have hand : ((j.client.incoming? a).bind verdictIn? = none ∧ v.settled = j.server.settled) ∨
          ∃ w, (j.client.incoming? a).bind verdictIn? = some w ∧ w ∈ j.server.settled.owed ∧
            v.settled = { j.server.settled with owed := j.server.settled.owed.erase w } := by
        cases hin : j.client.incoming? a with
        | none =>
          rw [hin] at hv
          exact Or.inl ⟨rfl, congrArg _ (Option.some.inj hv).symm⟩
        | some m =>
          rw [hin] at hv
          exact (Server.settled_hand hv).imp_left fun ⟨hn, he⟩ => ⟨hn, congrArg _ he⟩
      rw [List.mem_filter, not_and_or, Bool.not_eq_true] at hid
      rcases hid with hid | still
      · rw [List.mem_append, not_or] at hid
        rw [Server.settled_ask]
        refine (hj.agreed id hid.1).act hj.client hj.parted fair (fun t ht hident => hid.2 ?_) hand
        exact List.mem_filterMap.mpr ⟨t, ht, hident⟩
      · exact agreed_of_still still
    · cases h

theorem Sound.run (hj : j.Sound) {turns : List Turn} (h : j.run? turns = some j') : j'.Sound := by
  induction turns generalizing j with
  | nil =>
    cases h
    exact hj
  | cons turn rest ih =>
    obtain ⟨j₁, hturn, hrest⟩ := Option.bind_eq_some_iff.mp h
    exact ih (hj.turn hturn) hrest

theorem sound_start (config : Config) (restartable : Bool) (rules : List (String × Json)) :
    (start config restartable rules).Sound where
  client := sound_initial config restartable rules
  parted := parted_initial config restartable rules
  agreed := fun _ _ => agreed_of_still rfl

end Joint

/-- Whatever a session and its server have done, a tab that the session reports as attached is attached
on the server too, once the server has taken up all that it was asked and no detach of the tab is waited
for. The exception is a tab of whose id a detach was given up, by a timeout or because its call was
cancelled, until all is over that was then under way for the id. -/
theorem attached_on_server (config : Config) (restartable : Bool) (rules : List (String × Json))
    (turns : List Turn) (j : Joint) (run : (Joint.start config restartable rules).run? turns = some j)
    (served : j.server.asked = []) (t : Instance) (id : TabId) (ident : j.client.view.ident t = some id)
    (idle : ∀ c ∈ j.client.calls, c.exchange? ≠ some (.detach, t)) (kept : id ∉ j.forsaken)
    (attached : j.client.isAttached t = true) : j.server.attached id = true := by
  have hj := (Joint.sound_start config restartable rules).run run
  have hset := (hj.agreed id kept).set (some t)
    ⟨ident, Or.inr ⟨attached, fun ⟨c, hc, he⟩ => idle c hc he⟩⟩
  rw [Server.settled_of_asked_nil served] at hset
  exact hset

/-- A reply about the tab of id 7. -/
def replyTo (h : Handshake) (code : Nat) : Message :=
  .forTab .v8Debugger 7 (.ofFields [("command", .str h.name), ("result", .ofNat code)])

/-- A session with a listing of its tabs. -/
def listing : List Turn :=
  [.start 0 .connect, .resume 0, .receive, .resume 0, .start 1 .tabs, .resume 1, .receive,
    .resume 1].map .client

/-- An attach whose time is over before its reply arrives, and another one that hears this reply. -/
def retrying : List Turn :=
  listing ++
    [.client (.answerWith "attach" .null), .client (.start 2 (.attach 0 { name := "l" })),
      .client (.resume 2), .client (.advance 3000), .client (.resume 2),
      .client (.start 3 (.attach 0 { name := "l" })), .client (.resume 3), .server, .server,
      .client (.deliver (replyTo .attach 0)), .client (.resume 3),
      .client (.deliver (replyTo .attach 1))]

theorem retrying_runs : ((Joint.start {} false obliging).run? retrying).isSome = true := by
  decide +kernel

/-- The server has granted the first attach and refused the second; the tab is attached all the same. -/
theorem attached_on_server_after_retry : ∃ j, (Joint.start {} false obliging).run? retrying = some j ∧
    j.client.isAttached 0 = true ∧ j.server.attached 7 = true := by
  refine ⟨_, (Option.some_get retrying_runs).symm, by decide +kernel, ?_⟩
  exact attached_on_server {} false obliging retrying _ (Option.some_get retrying_runs).symm
    (by decide +kernel) 0 7 (by decide +kernel) (by decide +kernel) (by decide +kernel)
    (by decide +kernel)

/-- A detach whose time is over before its reply arrives. -/
def forsaking : List Turn :=
  listing ++
    [.client (.start 2 (.attach 0 { name := "l" })), .client (.resume 2), .server, .client .receive,
      .client (.resume 2), .client (.start 3 (.detach 0)), .client (.resume 3), .server,
      .client (.advance 3000), .client (.resume 3), .client (.deliver (replyTo .detach 0))]

theorem forsaking_runs : ((Joint.start {} false obliging).run? forsaking).isSome = true := by
  decide +kernel

/-- The tab stays attached though the server has granted the detach, and nothing is under way any
more. -/
theorem granted_detach_of_given_up_call_is_lost :
    ∃ j, (Joint.start {} false obliging).run? forsaking = some j ∧
      (j.server.asked = [] ∧ j.server.owed = [] ∧ j.client.calls = []) ∧
      j.client.view.ident 0 = some 7 ∧ j.client.isAttached 0 = true ∧ j.server.attached 7 = false :=
  ⟨_, (Option.some_get forsaking_runs).symm, by decide +kernel⟩

end RemoteDebug.Engine
