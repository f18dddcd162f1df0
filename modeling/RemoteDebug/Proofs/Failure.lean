import RemoteDebug.Proofs.Agreement
import RemoteDebug.Proofs.Turns

/-! What a failed exchange leaves behind.

An attach gives its tab the listener and a place before it knows how it comes out. If it fails then, or is
dropped, nothing else is left of it: no attachment and no connection is touched, and nobody hears of it.
A detach that fails or is dropped leaves nothing at all, and neither does a call that is dropped before it
begins. So a tab is attached after an exchange that came to nothing exactly if it was attached when the
exchange began, and nothing else has ended that meanwhile. -/
namespace RemoteDebug.Engine
open Protocol Wire

/-- A message, a log line or the failure of an exchange: nothing that happens to a tab or to the
connection. -/
def Entry.isMinor : Entry → Bool
  | .sent .. | .notice _ | .finished _ _ (.handshake (.error _)) => true
  | _ => false

/-- How the exchange of a call came out, if the entry says so. -/
def Entry.verdict? (c : Call) : Entry → Option (Except AttachError Unit)
  | .finished id r (.handshake verdict) => if id = c.id ∧ r = c.request then some verdict else none
  | _ => none

def verdicts (c : Call) (es : List Entry) : List (Except AttachError Unit) :=
  es.filterMap (Entry.verdict? c)

theorem verdicts_append (c : Call) (a b : List Entry) : verdicts c (a ++ b) = verdicts c a ++ verdicts c b :=
  List.filterMap_append

theorem verdicts_finished (c : Call) (verdict : Except AttachError Unit) :
    verdicts c [.finished c.id c.request (.handshake verdict)] = [verdict] := by
  simp [verdicts, Entry.verdict?]

theorem verdicts_congr {c x : Call} (same : x.id = c.id) (request : x.request = c.request) (es : List Entry) :
    verdicts x es = verdicts c es := by
  unfold verdicts Entry.verdict?
  rw [same, request]

/-- What is minor tells of no success. -/
theorem not_ok_of_minor {c : Call} {es : List Entry} (minor : ∀ e ∈ es, e.isMinor = true) :
    .ok () ∉ verdicts c es := by
  intro h
  obtain ⟨e, he, hv⟩ := List.mem_filterMap.mp h
  have hm := minor e he
  unfold Entry.verdict? at hv
  split at hv
  · next id r verdict =>
    split at hv
    · cases hv
      cases hm
    · cases hv
  · cases hv

/-- The connection but for what waits there: messages to be read and failures to come. -/
def Connection.channel (w : Connection) : Connection := { w with inbound := [], sendFaults := [] }

theorem channel_send (w : Connection) (m : Message) : (w.send m).1.channel = w.channel := by
  unfold Connection.send
  split
  · rfl
  · split
    · rfl
    · split <;> rfl

/-- The call goes on, or it is dropped. -/
def Call.Takes (c : Call) (a : Action) : Prop := a = .resume c.id ∨ a = .cancel c.id

namespace State

variable {s s' s'' : State} {c x : Call} {t : Instance} {l : Listener} {a : Action} {k : Ticket} {d : Nat}

/-! ### What is left alone -/

/-- No attachment changes, the connection stays as it is, and nobody hears of anything. -/
structure Spares (s s' : State) : Prop where
  attached : s'.isAttached = s.isAttached
  channel : s'.connection.channel = s.connection.channel
  minor : ∃ news, s'.journal = s.journal ++ news ∧ ∀ e ∈ news, e.isMinor = true

/-- Besides, every tab keeps its place and its listener. -/
structure Preserves (s s' : State) : Prop extends Spares s s' where
  registry : s'.registry = s.registry
  listener : s'.view.listener = s.view.listener

theorem Spares.trans (h : Spares s s') (h' : Spares s' s'') : Spares s s'' := by
  obtain ⟨news, hj, hn⟩ := h.minor
  obtain ⟨news', hj', hn'⟩ := h'.minor
  exact ⟨h'.attached.trans h.attached, h'.channel.trans h.channel, news ++ news',
    by rw [hj', hj, List.append_assoc], fun e he => (List.mem_append.mp he).elim (hn e) (hn' e)⟩

theorem Preserves.trans (h : Preserves s s') (h' : Preserves s' s'') : Preserves s s'' :=
  ⟨h.toSpares.trans h'.toSpares, h'.registry.trans h.registry, h'.listener.trans h.listener⟩

theorem Preserves.of_journal (attached : s'.isAttached = s.isAttached) (registry : s'.registry = s.registry)
    (listener : s'.view.listener = s.view.listener) (connection : s'.connection = s.connection)
    (journal : s'.journal = s.journal) : Preserves s s' :=
  ⟨⟨attached, congrArg _ connection, [], journal.trans (List.append_nil _).symm, fun _ he => by cases he⟩,
    registry, listener⟩

theorem Preserves.of_eq (tabs : s'.tabs = s.tabs) (registry : s'.registry = s.registry)
    (connection : s'.connection = s.connection) (journal : s'.journal = s.journal) : Preserves s s' := by
  refine .of_journal ?_ registry ?_ connection journal
  · unfold isAttached tab?
    rw [tabs]
  · show (fun u => (s'.tab? u).bind _) = fun u => (s.tab? u).bind _
    unfold tab?
    rw [tabs]

theorem Preserves.refl (s : State) : Preserves s s := .of_eq rfl rfl rfl rfl

theorem Inward.preserves (h : Inward s s') : Preserves s s' :=
  .of_journal h.attached h.registry h.listener h.connection h.journal

theorem Preserves.note (s : State) {es : List Entry} (minor : ∀ e ∈ es, e.isMinor = true) :
    Preserves s (s.note es) :=
  ⟨⟨rfl, rfl, es, rfl, minor⟩, rfl, rfl⟩

theorem Preserves.send (s : State) (asker : Option CallId) (m : Message) :
    Preserves s (s.send asker m).1 := by
  rw [send_eq]
  refine ⟨⟨rfl, channel_send s.connection m, _, rfl, fun e he => ?_⟩, rfl, rfl⟩
  unfold posted at he
  split at he
  · rw [List.mem_singleton.mp he]
    rfl
  · cases he

theorem Preserves.asked (s : State) (c : Call) (m : Message) : Preserves s (s.asked c m) :=
  (Inward.enter s c).preserves.trans (.send _ _ m)

theorem Conclusions.preserves (h : Conclusions c s s') (about : c.request.tab? = some t) :
    Preserves s s' := by
  induction h with
  | refl => exact .refl s
  | tail _ step ih =>
    refine ih.trans ?_
    cases step with
    | noted e remark =>
      refine .note _ fun x hx => ?_
      rw [List.mem_singleton.mp hx]
      cases remark with
      | notice n => rfl
      | finished r failed =>
        obtain ⟨e, rfl⟩ := failed t about
        rfl
    | readied other ready =>
      rw [other] at about
      cases about
    | created other e vacant =>
      rw [other] at about
      cases about

/-- An attach that takes its place gives its tab the listener, and touches no attachment; a detach prepares
nothing. -/
theorem Preparations.spares (h : Preparations c s s') (about : c.request.tab? = some t) :
    s' = s ∨ Spares s s' ∧ ∃ l, c.request = .attach t l := by
  induction h with
  | refl => exact Or.inl rfl
  | @tail x y _ step ih =>
    have hstep : Spares x y ∧ ∃ l, c.request = .attach t l := by
      have hattach : ∀ {u l}, c.request = .attach u l → ∃ l, c.request = .attach t l := by
        intro u l hr
        rw [hr] at about
        exact ⟨l, by rw [hr, Option.some.inj about]⟩
      cases step with
      | served free =>
        rw [about] at free
        cases free
      | started other service =>
        rw [other] at about
        cases about
      | purged other =>
        rw [other] at about
        cases about
      | marked u l hr =>
        refine ⟨⟨isAttached_modifyTab_of_keeps x u _ fun _ => rfl, rfl, [], ?_, fun _ he => ?_⟩, hattach hr⟩
        · exact (List.append_nil _).symm
        · cases he
      | enrolled u l tab hr known vacant =>
        refine ⟨⟨rfl, rfl, [], (List.append_nil _).symm, fun _ he => ?_⟩, hattach hr⟩
        cases he
    rcases ih with rfl | ⟨hsteps, _⟩
    · exact Or.inr hstep
    · exact Or.inr ⟨hsteps.trans hstep.1, hstep.2⟩

/-! ### How a call comes out -/

/-- Nothing is said of how the exchange of a call came out. -/
def Unsaid (c : Call) (s s' : State) : Prop :=
  ∃ news, s'.journal = s.journal ++ news ∧ verdicts c news = []

/-- The exchange of a call comes out well, and no other way. -/
def Yields (c : Call) (s s' : State) : Prop :=
  ∃ news, s'.journal = s.journal ++ news ∧ verdicts c news = [.ok ()]

theorem Unsaid.of_eq (h : s'.journal = s.journal) : Unsaid c s s' :=
  ⟨[], h.trans (List.append_nil _).symm, rfl⟩

theorem Yields.after (h : Unsaid c s s') (h' : Yields c s' s'') : Yields c s s'' := by
  obtain ⟨news, hj, hn⟩ := h
  obtain ⟨news', hj', hn'⟩ := h'
  exact ⟨news ++ news', by rw [hj', hj, List.append_assoc], by rw [verdicts_append, hn, hn']; rfl⟩

theorem Yields.report (h : Unsaid c s s') : Yields c s (s'.report c (.handshake (.ok ()))) :=
  .after h ⟨_, rfl, verdicts_finished c _⟩

theorem Parts.unsaid (h : Parts s s') (c : Call) : Unsaid c s s' := by
  obtain ⟨news, hj, parting⟩ := h
  refine ⟨news, hj, List.filterMap_eq_nil_iff.mpr fun e he => ?_⟩
  have hp := parting e he
  cases e with
  | finished id r result => cases hp
  | _ => rfl

/-- A wait that is over leaves everything alone, if the exchange does not come out well. -/
theorem poll_outcome (s : State) (about : c.request.tab? = some t) (k : Ticket) (d : Nat) :
    Preserves s (s.poll c k d) ∨ Yields c s (s.poll c k d) := by
  have hpolled := polled s c k d
  generalize s.poll c k d = y at hpolled ⊢
  have hquit : Preserves s (s.quit c k) := (Inward.quit s c k).preserves
  cases hpolled with
  | lasts still => exact Or.inl (.refl s)
  | left conclusions => exact Or.inl (hquit.trans (Conclusions.preserves conclusions about))
  | attached u l reply hr heard ok => exact Or.inr (.report (.of_eq (journal_quit s c k)))
  | detached u reply hr heard ok =>
    exact Or.inr (.after (.of_eq (journal_quit s c k)) (.report ((Parts.unwind _ _).unsaid c)))

theorem ask_outcome (s : State) (about : c.request.tab? = some t) (m : Message) :
    Preserves s (s.ask c m) ∨ Yields c s (s.ask c m) := by
  have hasked := Preserves.asked s c m
  have hsaid : Unsaid c s (s.asked c m) := by
    refine ⟨_, journal_asked s c m, ?_⟩
    unfold posted
    split <;> rfl
  rcases ask_cases s c m with ⟨sent, h⟩ | ⟨e, unsent, left⟩
  · rw [h]
    exact (poll_outcome (s.asked c m) about _ _).imp hasked.trans (.after hsaid)
  · have hgone : Preserves s (s.refused c m) := hasked.trans (Inward.quit _ c _).preserves
    exact Or.inl (hgone.trans (Conclusions.preserves left about))

theorem begin_outcome (s : State) (about : c.request.tab? = some t) : Yields c s (s.begin c) ∨
    Preserves s (s.begin c) ∨ (Spares s (s.begin c) ∧ ∃ l, c.request = .attach t l) := by
  have hbegun := begun s c
  generalize s.begin c = y at hbegun ⊢
  obtain ⟨x, prepared, houtcome⟩ : ∃ x, Preparations c s x ∧ (Preserves x y ∨ Yields c x y) := by
    cases hbegun with
    | asks x prepared fits => exact ⟨x, prepared, ask_outcome x about _⟩
    | leaves x prepared r remark =>
      have hleft : Conclusions c ((x.unmark c.request).retire c) ((x.unmark c.request).finish c r) :=
        .single (.noted _ remark)
      have hgone := (Inward.unmark x c.request).trans (.retire _ c)
      exact ⟨x, prepared, Or.inl (hgone.preserves.trans (hleft.preserves about))⟩
  have hj := Preparations.journal prepared
  rcases Preparations.spares prepared about with rfl | ⟨hspares, hattach⟩
  · exact houtcome.elim (fun h => Or.inr (Or.inl h)) Or.inl
  · exact houtcome.elim (fun h => Or.inr (Or.inr ⟨hspares.trans h.toSpares, hattach⟩))
      fun h => Or.inl (.after (.of_eq hj) h)

/-- What a call for a tab does: its exchange comes out well, or it leaves everything alone, but for the
listener and the place that an attach brings when it begins. -/
theorem resume_outcome (s : State) (about : c.request.tab? = some t) : Yields c s (s.resume c) ∨
    Preserves s (s.resume c) ∨ (s.Admits c ∧ Spares s (s.resume c) ∧ ∃ l, c.request = .attach t l) := by
  have hlined := (Inward.lined s c).preserves
  by_cases admits : s.Admits c
  · rw [resume_of_admits admits]
    rcases begin_outcome (s.lined c) about with h | h | ⟨h, hattach⟩
    · exact Or.inl (.after (.of_eq (journal_lined s c)) h)
    · exact Or.inr (Or.inl (hlined.trans h))
    · exact Or.inr (Or.inr ⟨admits, hlined.toSpares.trans h, hattach⟩)
  · rcases resume_of_not_admits admits with ⟨_, h⟩ | ⟨_, h⟩ | ⟨k, d, _, h⟩ <;> rw [h]
    · exact Or.inr (Or.inl (.refl s))
    · exact Or.inr (Or.inl (hlined.trans (Inward.setPoint _ _ _).preserves))
    · exact (poll_outcome s about k d).elim (fun h => Or.inr (Or.inl h)) Or.inl

theorem Preserves.cancel (s : State) (id : CallId) : Preserves s (s.cancel id) := by
  unfold State.cancel
  split
  · exact .refl s
  · split
    · exact (Inward.quit s _ _).preserves
    · exact (Inward.retire s _).preserves

/-! ### The steps of a call -/

/-- The exchange of a call comes out so by an action. -/
def Concludes (s : State) (c : Call) (verdict : Except AttachError Unit) (a : Action) : Prop :=
  verdict ∈ verdicts c (s.news a)

instance (s : State) (c : Call) (verdict : Except AttachError Unit) (a : Action) :
    Decidable (s.Concludes c verdict a) :=
  inferInstanceAs (Decidable (_ ∈ _))

theorem Yields.verdicts_eq (h : Yields c s (s.act a)) : verdicts c (s.news a) = [.ok ()] := by
  obtain ⟨news, hj, hv⟩ := h
  rw [news_eq hj, hv]

theorem Yields.succeeds (h : Yields c s (s.act a)) : s.Concludes c (.ok ()) a := by
  unfold Concludes
  rw [h.verdicts_eq]
  exact List.mem_singleton.mpr rfl

theorem Spares.not_succeeds (h : Spares s (s.act a)) (c : Call) : ¬ s.Concludes c (.ok ()) a := by
  obtain ⟨news, hj, hn⟩ := h.minor
  unfold Concludes
  rw [news_eq hj]
  exact not_ok_of_minor hn

/-- What a step of a call for a tab does. -/
theorem Sound.takes_outcome (hs : s.Sound) (hc : c ∈ s.calls) (about : c.request.tab? = some t)
    (h : c.Takes a) : Yields c s (s.act a) ∨ Preserves s (s.act a) ∨
      (s.Admits c ∧ Spares s (s.act a) ∧ ∃ l, c.request = .attach t l) := by
  rcases h with rfl | rfl
  · rw [hs.act_resume hc]
    exact resume_outcome s about
  · exact Or.inr (Or.inl (.cancel s c.id))

/-- The session without a call for a tab. -/
def without (s : State) (c : Call) (t : Instance) : State :=
  { s with calls := s.calls.filter (·.id != c.id) }.modifyTab t fun tab =>
    { tab with lock := tab.lock.filter (· != c.id) }

/-- A call that is dropped before it begins leaves its line, and that is all. -/
theorem Sound.cancel_of_idle (hs : s.Sound) (hc : c ∈ s.calls) (about : c.request.tab? = some t)
    (idle : c.Idle) : s.act (.cancel c.id) = s.without c t := by
  have hretire : s.act (.cancel c.id) = s.retire c := by
    simp only [State.act, State.cancel, hs.call?_eq hc]
    split
    · next k d hp => exact absurd hp (idle k d)
    · rfl
  rw [hretire]
  exact changeLock_of_tab? _ about _

/-! ### While a call waits -/

/-- The call, if it is still there, waits for its reply. -/
def Committed (s : State) (c : Call) : Prop :=
  ∀ x ∈ s.calls, x.id = c.id → ¬ x.Idle ∧ x.request = c.request

/-- A call that has left is committed to nothing. -/
theorem Committed.of_left (h : s.calls = s'.calls.filter (·.id != c.id)) : s.Committed c := by
  intro x hx same
  rw [h] at hx
  exact absurd same (bne_iff_ne.mp (List.mem_filter.mp hx).2)

/-- A call that looks whether its wait is over changes nothing, or it leaves. -/
theorem poll_lasts_or_leaves (s : State) (c : Call) (k : Ticket) (d : Nat) :
    s.poll c k d = s ∨ (s.poll c k d).calls = s.calls.filter (·.id != c.id) := by
  have hpolled := polled s c k d
  generalize s.poll c k d = y at hpolled ⊢
  cases hpolled with
  | lasts still => exact Or.inl rfl
  | left conclusions => exact Or.inr ((Conclusions.calls conclusions).trans (calls_quit s c k))
  | attached u l reply hr heard ok => exact Or.inr (calls_quit s c k)
  | detached u reply hr heard ok => exact Or.inr ((calls_unwind _ _).trans (calls_quit s c k))

/-- A call that has asked waits, unless it has left. -/
theorem committed_ask (alone : ∀ x ∈ s.calls, x.id = c.id → x = c) (m : Message) : (s.ask c m).Committed c := by
  have hasked : (s.asked c m).Committed c := by
    intro x hx same
    have hx : x ∈ (s.enter c).calls := by
      unfold asked at hx
      rw [send_eq] at hx
      exact hx
    have hcalls : (s.join c.request).calls = s.calls := by
      unfold join
      cases c.request <;> rfl
    change x ∈ ((s.join c.request).setPoint c.id _).calls at hx
    obtain ⟨y, hy, rfl⟩ := List.mem_map.mp hx
    rw [hcalls] at hy
    split at same
    · next hid =>
      rw [if_pos hid, alone y hy hid]
      exact ⟨fun idle => idle _ _ rfl, rfl⟩
    · next hid => exact absurd same hid
  rcases ask_cases s c m with ⟨sent, h⟩ | ⟨e, unsent, left⟩
  · rw [h]
    rcases poll_lasts_or_leaves (s.asked c m) c (s.nextTicket c.request) (s.deadlineOf c.request) with h | h
    · rw [h]
      exact hasked
    · exact .of_left h
  · exact .of_left ((Conclusions.calls left).trans (calls_quit _ c _))

theorem Committed.finish (s : State) (c : Call) (r : Result) : (s.finish c r).Committed c :=
  .of_left (calls_retire s c)

/-- So does a call that begins. -/
theorem Sound.committed_of_admits (hs : s.Sound) (hc : c ∈ s.calls) (admits : s.Admits c) :
    (s.act (.resume c.id)).Committed c := by
  have hbegun := begun (s.lined c) c
  rw [hs.act_resume hc, resume_of_admits admits]
  generalize (s.lined c).begin c = y at hbegun ⊢
  cases hbegun with
  | asks x prepared fits =>
    refine committed_ask (fun y hy same => ?_) _
    rw [Preparations.calls prepared, calls_lined] at hy
    exact hs.call_eq hy hc same
  | leaves x prepared r remark => exact .finish _ c r

/-- The call is there before the action. -/
def Attends (c : Call) (s : State) (_ : Action) : Prop := (s.call? c.id).isSome = true

instance (s : State) (c : Call) (a : Action) : Decidable (Attends c s a) :=
  inferInstanceAs (Decidable (_ = true))

/-- A committed call that is there is one that waits for its tab. -/
theorem Committed.exists_engaged (h : s.Committed c) (there : Attends c s a)
    (about : c.request.tab? = some t) :
    ∃ x ∈ s.calls, x.id = c.id ∧ x.request = c.request ∧ x.Engages t := by
  obtain ⟨x, hid⟩ := Option.isSome_iff_exists.mp there
  obtain ⟨hx, same⟩ := call_of_call? hid
  obtain ⟨waits, request⟩ := h x hx same
  exact ⟨x, hx, same, request, by rw [request]; exact about, waits⟩

theorem Committed.act (h : s.Committed c) (hs : s.Sound) (there : Attends c s a)
    (about : c.request.tab? = some t) : (s.act a).Committed c := by
  obtain ⟨x, hx, same, _, engages⟩ := h.exists_engaged there about
  by_cases takes : c.Takes a
  · obtain ⟨k, d, hp⟩ := point_of_waits engages.waits
    rw [Call.Takes, ← same] at takes
    rcases takes with rfl | rfl
    · have hact : s.act (.resume x.id) = s.poll x k d := by
        simp only [hs.act_resume hx, resume, hp]
      rw [hact]
      rcases poll_lasts_or_leaves s x k d with hpoll | hpoll
      · rw [hpoll]
        exact h
      · rw [same] at hpoll
        exact .of_left hpoll
    · have hact : s.act (.cancel x.id) = s.quit x k := by
        simp only [State.act, State.cancel, hs.call?_eq hx, hp]
      have hquit := calls_quit s x k
      rw [same] at hquit
      rw [hact]
      exact .of_left hquit
  · have hstays : x ∈ (s.act a).calls :=
      mem_act_of_other hx (fun he => takes (Or.inl (same ▸ he))) fun he => takes (Or.inr (same ▸ he))
    intro y hy hid
    rw [(hs.act a).call_eq hy hstays (hid.trans same.symm)]
    exact h x hx same

/-- While a call waits for a tab, no other call for the tab begins. -/
theorem Sound.not_begins (hs : s.Sound) (hx : x ∈ s.calls) (engages : x.Engages t) : ¬ s.Begins t l a := by
  rintro ⟨y, hy, hr, admits, rfl⟩
  have hsl := hs.lined hy
  have p := hs.poised_of_admits hy admits
  have hx' : x ∈ (s.lined y).calls := by
    rw [calls_lined]
    exact hx
  obtain ⟨k, d, hp⟩ := point_of_waits engages.waits
  obtain rfl : x = y := hsl.exclusive hx' p.mem (hsl.holder x _ k (waits_of_point hx' hp)) p.holds
    (Request.need?_of_tab? engages.about) (Request.need?_of_tab? (by rw [hr]; rfl))
  exact engages.waits p.idle

theorem Committed.listener_act (h : s.Committed c) (hs : s.Sound) (there : Attends c s a)
    (about : c.request.tab? = some t) : (s.act a).view.listener t = s.view.listener t := by
  obtain ⟨x, hx, _, _, engages⟩ := h.exists_engaged there about
  exact (Aloof.act fun _ => hs.not_begins hx engages).listener

/-- While a call waits and does not come out well, its tab stays attached until something else ends that. -/
theorem Committed.attached_act (h : s.Committed c) (hs : s.Sound) (there : Attends c s a)
    (about : c.request.tab? = some t) (unsuccessful : ¬ s.Concludes c (.ok ()) a) :
    (s.act a).isAttached t = true ↔ s.isAttached t = true ∧ (c.Takes a ∨ ¬ s.Ends t a) := by
  obtain ⟨x, hx, same, request, engages⟩ := h.exists_engaged there about
  by_cases takes : c.Takes a
  · have hspares : Spares s (s.act a) := by
      have hx_takes : x.Takes a := by
        unfold Call.Takes
        rw [same]
        exact takes
      rcases hs.takes_outcome hx engages.about hx_takes with hy | hr | ⟨_, hsp, _⟩
      · refine absurd ?_ unsuccessful
        unfold Concludes
        rw [← verdicts_congr same request]
        exact hy.succeeds
      · exact hr.toSpares
      · exact hsp
    rw [hspares.attached, and_iff_left (Or.inl takes)]
  · have others : ¬ s.Grants t a := by
      rintro ⟨y, hy, rfl⟩
      have hxy := hs.engaged_eq hx hy.mem engages ⟨Request.tab?_of_handshake? hy.seeks, hy.pursues.waits⟩
      exact takes (Or.inl (by rw [← hxy, same]))
    rw [hs.attached_act, or_iff_right others, or_iff_right takes]

theorem Committed.listener_run (h : s.Committed c) (hs : s.Sound) (about : c.request.tab? = some t)
    {rest : List Action} (there : Lasts (Attends c) s rest) :
    (s.run rest).view.listener t = s.view.listener t := by
  induction rest generalizing s with
  | nil => rfl
  | cons a rest ih =>
    exact (ih (h.act hs there.1 about) (hs.act a) there.2).trans (h.listener_act hs there.1 about)

theorem Committed.attached_run (h : s.Committed c) (hs : s.Sound) (about : c.request.tab? = some t)
    {rest : List Action} (there : Lasts (Attends c) s rest)
    (unsuccessful : Lasts (fun y a => ¬ y.Concludes c (.ok ()) a) s rest) : (s.run rest).isAttached t = true ↔
      s.isAttached t = true ∧ Lasts (fun y a => c.Takes a ∨ ¬ y.Ends t a) s rest := by
  induction rest generalizing s with
  | nil => exact (and_iff_left trivial).symm
  | cons a rest ih =>
    rw [run_cons, ih (h.act hs there.1 about) (hs.act a) there.2 unsuccessful.2,
      h.attached_act hs there.1 about unsuccessful.1, and_assoc]
    rfl

/-- In every history, an exchange that comes to nothing leaves the attachment of its tab as it was. A call
that is dropped before it begins leaves its line, and that is all. By no step of its own that does not
bring the exchange to a good end, so neither by one that fails nor by one that drops the call, does a call
change an attachment or the connection, and nobody hears of one; only when an attach begins does a tab get
a listener and a place. And from where the call begins up to where it fails or is dropped, its tab is
attached exactly if it was attached then and nothing but the call itself has ended that, and an attach
leaves the listener with it. -/
theorem failed_exchange_leaves_attachment (config : Config) (restartable : Bool)
    (rules : List (String × Json)) (actions : List Action) {c : Call} {t : Instance} :
    let s := (initial config restartable rules).run actions
    c ∈ s.calls → c.request.tab? = some t →
      (c.Idle → s.act (.cancel c.id) = s.without c t) ∧
      (∀ a, c.Takes a → ¬ s.Concludes c (.ok ()) a → Spares s (s.act a) ∧
        (c.request = .detach t ∨ ¬ s.Admits c → Preserves s (s.act a))) ∧
      (∀ a, c.Takes a → a = .cancel c.id ∨ (∃ e, s.Concludes c (.error e) a) → ¬ s.Concludes c (.ok ()) a) ∧
      (s.Admits c → ∀ rest, Lasts (Attends c) (s.act (.resume c.id)) rest →
        Lasts (fun y a => ¬ y.Concludes c (.ok ()) a) s (.resume c.id :: rest) →
        let s' := s.run (.resume c.id :: rest)
        (s'.isAttached t = true ↔ s.isAttached t = true ∧
          Lasts (fun y a => c.Takes a ∨ ¬ y.Ends t a) s (.resume c.id :: rest)) ∧
        ∀ l, c.request = .attach t l → s'.view.listener t = some l) := by
  intro s hc about
  have hs : s.Sound := (sound_initial config restartable rules).run actions
  have hspares : ∀ a, c.Takes a → ¬ s.Concludes c (.ok ()) a → Spares s (s.act a) ∧
      (c.request = .detach t ∨ ¬ s.Admits c → Preserves s (s.act a)) := by
    intro a takes unsuccessful
    rcases hs.takes_outcome hc about takes with hy | hr | ⟨admits, hsp, l, hr⟩
    · exact absurd hy.succeeds unsuccessful
    · exact ⟨hr.toSpares, fun _ => hr⟩
    · refine ⟨hsp, fun h => ?_⟩
      rcases h with hdetach | hnot
      · rw [hr] at hdetach
        cases hdetach
      · exact absurd admits hnot
  refine ⟨hs.cancel_of_idle hc about, hspares, fun a takes h => ?_, fun admits rest there unsuccessful => ?_⟩
  · rcases h with rfl | ⟨e, he⟩
    · exact (Preserves.cancel s c.id).toSpares.not_succeeds c
    · rcases hs.takes_outcome hc about takes with hy | hr | ⟨_, hsp, _⟩
      · unfold Concludes at he
        rw [hy.verdicts_eq, List.mem_singleton] at he
        cases he
      · exact hr.toSpares.not_succeeds c
      · exact hsp.not_succeeds c
  · have committed := hs.committed_of_admits hc admits
    have hs₁ := hs.act (.resume c.id)
    refine ⟨?_, fun l hr => ?_⟩
    · rw [run_cons, committed.attached_run hs₁ about there unsuccessful.2,
        (hspares _ (Or.inl rfl) unsuccessful.1).1.attached]
      exact and_congr_right fun _ => ⟨fun h => ⟨Or.inl (Or.inl rfl), h⟩, And.right⟩
    · rw [run_cons, committed.listener_run hs₁ about there]
      exact hs.listener_begins ⟨c, hc, hr, admits, rfl⟩

/-- An attach of the first tab of a server that does not answer, before it begins. -/
def vainCall : Call := ⟨2, .attach 0 { name := "l" }, .fresh⟩

/-- When its time is over it fails, and the tab is not attached but has the listener. -/
theorem unanswered_attach_leaves_listener :
    let s := (initial {} false obliging).run (attempting.take 10)
    let timedOut : List Action := [.resume 2, .advance 3000, .resume 2]
    vainCall ∈ s.calls ∧ s.Admits vainCall ∧
      (∃ e, (s.run [.resume 2, .advance 3000]).Concludes vainCall (.error e) (.resume 2)) ∧
      (s.run timedOut).isAttached 0 = false ∧
      (s.run timedOut).view.listener 0 = some { name := "l" } := by
  intro s timedOut
  have hc : vainCall ∈ s.calls := by decide +kernel
  have admits : s.Admits vainCall := ⟨fun k d => Point.noConfusion, by decide +kernel⟩
  have there : Lasts (Attends vainCall) (s.act (.resume 2)) [.advance 3000, .resume 2] := by decide +kernel
  have unsuccessful : Lasts (fun y a => ¬ y.Concludes vainCall (.ok ()) a) s timedOut := by decide +kernel
  have detached : s.isAttached 0 = false := by decide +kernel
  obtain ⟨_, _, _, course⟩ := failed_exchange_leaves_attachment {} false obliging (attempting.take 10) hc rfl
  obtain ⟨attached, listener⟩ := course admits [.advance 3000, .resume 2] there unsuccessful
  refine ⟨hc, admits, ⟨.transport (.timeout (.reply "attach" 3000000000)), ?_⟩, ?_, listener _ rfl⟩
  · unfold Concludes
    decide +kernel
  · rw [← Bool.not_eq_true]
    intro h
    rw [(attached.mp h).1] at detached
    cases detached

end State
end RemoteDebug.Engine
