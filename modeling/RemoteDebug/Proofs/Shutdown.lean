import RemoteDebug.Proofs.Snapshot

/-! The end of a connection, whatever brings it about.

When a connection is open before an action and closed after it, it closed once and the
session heard of it once. The tabs that were attached heard that they are detached
and are gone from the registry, the others are where they were, and the order of the
registry had no part in it. -/
namespace RemoteDebug.Engine
open Protocol Wire

namespace State

variable {s s' : State} {a : Action} {o : Occasion} {t : Instance}

theorem BypassFreeMoves.lasts (h : BypassFreeMoves s s') (hs : s.Sound) (hc : s.connection.connected = true) :
    s'.connection.connected = true := by
  induction h with
  | refl => exact hc
  | tail steps step ih => exact (step.linked (BypassFreeMoves.sound steps hs)).lasts ih

theorem connection_detached_of_unattached (ha : s.isAttached t = false) :
    (s.detached t).connection = s.connection := by
  unfold detached
  rw [unwind, duties_detach_of_unattached ha, List.nil_append, unwind]
  exact connection_detach s t

theorem tabEvents_told (s : State) (t u : Instance) (what : Listener → TabEvent) :
    tabEvents u (s.told t what) = if t = u then ((s.view.listener t).map what).toList else [] := by
  have hl : s.view.listener t = (s.tab? t).bind (·.listener) := rfl
  unfold told
  rw [hl]
  cases (s.tab? t).bind (·.listener) with
  | none => exact (ite_self _).symm
  | some l =>
    show [Entry.event t (what l)].filterMap (Entry.event? u) = _
    unfold Entry.event?
    split <;> next h => simp [h]

/-- What an action that closes the connection ends, and from what state. -/
structure Closes (s : State) (a : Action) (o : Occasion) : Prop where
  occasion : s.occasion? a = some o
  sound : o.before.Sound
  attentive : o.before.Attentive
  connected : o.before.connection.connected = true
  disconnected : (o.before.fire o.trigger).connection.connected = false
  attached : ∀ t, o.before.isAttached t = s.isAttached t
  registered : ∀ id, o.before.registered? id = s.registered? id
  ident : o.before.view.ident = s.view.ident
  listener : o.before.view.listener = s.view.listener

theorem Sound.closes (hs : s.Sound) (ha : s.Attentive) (ordinary : a.isOrdinary = true)
    (connected : s.connection.connected = true) (closed : (s.act a).connection.connected = false) :
    ∃ o, s.Closes a o := by
  cases ho : s.occasion? a with
  | none =>
    have hlasts := (hs.bypassFree_act ordinary ho).lasts hs connected
    rw [closed] at hlasts
    cases hlasts
  | some o =>
    have hb := (replyFree_before ho).bypassFree
    obtain ⟨_, _, _, hview⟩ := hs.view_before ho
    obtain ⟨_, hcon⟩ := connection_before ho
    refine ⟨o, ho, hb.sound hs, hb.attentive hs ha, ?_, ?_, fun t => ?_, fun id => ?_, ?_, ?_⟩
    · rw [hcon]
      exact connected
    · rw [act_of_occasion ho] at closed
      exact closed
    · exact congrFun (congrArg View.attached hview) t
    · exact congrArg (·.lookup id) (congrArg View.registry hview)
    · rw [hview]
    · rw [hview]

namespace Closes

/-- The instance whose attachment ends first is attached, or nothing would close. -/
theorem attached_of_detached (h : s.Closes a o) (hk : o.trigger = .detached t) :
    s.isAttached t = true := by
  rw [← h.attached t]
  refine Bool.not_eq_false _ ▸ fun ha => ?_
  have hc := h.disconnected
  rw [hk] at hc
  change (o.before.detached t).connection.connected = false at hc
  rw [connection_detached_of_unattached ha, h.connected] at hc
  cases hc

/-- Before anything ends, only a tab that is attached is told something: that it is closed. -/
theorem lead (h : s.Closes a o) : ∃ lead, o.before.journal = s.journal ++ lead ∧ closings lead = 0 ∧
    (∀ t, s.isAttached t = false → tabEvents t lead = []) ∧
    ∀ t l, s.view.listener t = some l → tabEvents t lead = [] ∨ tabEvents t lead = [.closed l] := by
  rcases journal_before h.occasion with hj | ⟨u, hk, hj⟩
  · exact ⟨[], hj.trans (List.append_nil _).symm, rfl, fun _ _ => rfl, fun _ _ _ => Or.inl rfl⟩
  · have hu := h.attached_of_detached hk
    refine ⟨_, hj, ?_, fun t ht => ?_, fun t l hl => ?_⟩
    · unfold told
      split <;> rfl
    · rw [tabEvents_told, if_neg]
      rintro rfl
      rw [hu] at ht
      cases ht
    · rw [tabEvents_told]
      split
      · next hut =>
        rw [hut, hl]
        exact Or.inr rfl
      · exact Or.inl rfl

theorem names_iff (h : s.Closes a o) {id : TabId} :
    o.trigger.names o.before id ↔ o.trigger.names s id := by
  cases o.trigger with
  | detached t =>
    show _ ∧ o.before.registered? id ≠ some t ↔ _
    rw [h.ident, h.registered]
    rfl
  | _ => exact Iff.rfl

/-- No tab that was registered is attached when the connection is closed. -/
theorem gone (h : s.Closes a o) {id : TabId} (hr : s.registered? id = some t) :
    (o.before.fire o.trigger).isAttached t = false := by
  have hm : Moored t o.before [] := fun _ =>
    Or.inl ⟨⟨id, mem_of_lookup ((h.registered id).trans hr)⟩, h.connected⟩
  refine Bool.eq_false_iff.mpr fun hat => ?_
  have hc := ((hm.fire h.sound h.attentive o.trigger hat).resolve_right List.not_mem_nil).2
  rw [h.disconnected] at hc
  cases hc

/-- A tab that was registered and attached is out of the registry. -/
theorem struck (h : s.Closes a o) {id : TabId} (hr : s.registered? id = some t)
    (ha : s.isAttached t = true) (k : TabId) : (o.before.fire o.trigger).registered? k ≠ some t := by
  intro hk
  rcases h.sound.cleared_fire h.attentive.alive o.trigger t ((h.attached t).trans ha) with
    hstill | hout | ⟨_, _, hm⟩
  · rw [h.gone hr] at hstill
    cases hstill
  · exact hout ⟨k, mem_of_lookup hk⟩
  · cases hm

/-- A tab that was registered and attached hears that it is detached. -/
theorem heard (h : s.Closes a o) {news : List Entry} {id : TabId}
    (he : Ended o.before (o.before.fire o.trigger) news) (hr : s.registered? id = some t)
    (ha : s.isAttached t = true) : ∃ l, s.view.listener t = some l ∧
      tabEvents t news = [.contextDetached, .disconnected l] := by
  rcases he.heard h.sound t with ⟨hsame, _⟩ | ⟨_, _, l, hl, hevents⟩
  · rw [h.gone hr, h.attached t, ha] at hsame
    cases hsame
  · rw [h.listener] at hl
    exact ⟨l, hl, hevents⟩

/-- A tab that was not attached hears nothing. -/
theorem unheard (h : s.Closes a o) {news : List Entry}
    (he : Ended o.before (o.before.fire o.trigger) news) (ha : s.isAttached t = false) :
    tabEvents t news = [] := by
  rcases he.heard h.sound t with ⟨_, hevents⟩ | ⟨hwas, _⟩
  · exact hevents
  · rw [h.attached t, ha] at hwas
    cases hwas

/-- A tab that was registered and not attached keeps its place, unless its end was told. -/
theorem kept (h : s.Closes a o) {id : TabId} (hr : s.registered? id = some t)
    (ha : s.isAttached t = false) (hn : ¬ o.trigger.names s id) :
    (o.before.fire o.trigger).registered? id = some t := by
  have hspared := h.sound.spared_fire ((h.registered id).trans hr)
    ((h.attached t).trans ha) fun hk => hn (h.names_iff.mp hk)
  exact lookup_of_mem ((moves_fire o.before o.trigger).sound h.sound).keys hspared.kept

end Closes

end State

/-- The action ends something that has the session told that the tab of an id is finished. -/
def Action.names (s : State) (a : Action) (id : TabId) : Prop :=
  ∃ o, s.occasion? a = some o ∧ o.trigger.names s id

namespace State

/-- A history in which one of two tabs comes to be attached. -/
def attaching : List Action :=
  [.start 0 .connect, .resume 0, .receive, .resume 0, .start 1 .tabs, .resume 1, .receive, .resume 1,
    .start 2 (.attach 0 { name := "l" }), .resume 2, .receive, .resume 2]

end State
end RemoteDebug.Engine
