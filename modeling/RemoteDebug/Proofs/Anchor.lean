import RemoteDebug.Proofs.Exchange
import RemoteDebug.Proofs.Link

/-! Attached instances have their place.

While the owner keeps the browser and messages reach tabs by the registry only, an
attached instance is in the registry and the connection is there. In the middle of a
cascade this holds but for the instances that are still to be detached. What could
break it is an attach that was answered and has not gone on: its instance may lose its
place, or the connection may close, before it is attached. -/
namespace RemoteDebug.Engine
open Protocol Wire

namespace State

variable {s s' : State} {t : Instance} {duties rest : List Duty}

/-- No call has its attach answered and has not gone on. -/
def Unanswered (s : State) : Prop := ∀ t, ¬ s.view.Awaits .attach t (.answered ())

/-- An instance that is attached has its place, or is still to be detached. -/
def Moored (t : Instance) (s : State) (duties : List Duty) : Prop :=
  s.isAttached t = true → (s.Enlisted t ∧ s.connection.connected = true) ∨ .detach t ∈ duties

/-- Attachments have what they need, but for those that are still to end. -/
structure Anchored (s : State) (duties : List Duty) : Prop where
  attentive : s.Attentive
  attached : ∀ t, Moored t s duties
  /-- Nor can an attach be granted by the registry once the connection is gone. -/
  waiting : ∀ t, s.view.Awaits .attach t .waiting → s.Enlisted t →
    s.connection.connected = true ∨ .detach t ∈ duties

theorem ReplyFreeMove.unanswered (hu : ReplyFreeMove s s') (hs : s.Sound) (hn : s.Unanswered) : s'.Unanswered := by
  intro t hw
  rcases hu.awaits hs hw with hw | ⟨hr, _⟩ | hr
  · exact hn t hw
  · cases hr
  · cases hr

theorem ReplyFreeMove.anchored (hu : ReplyFreeMove s s') (hs : s.Sound) (hn : s.Unanswered)
    (h : s.Anchored duties) : s'.Anchored duties where
  attentive := (BypassFreeMove.replyFree hu).attentive hs h.attentive
  attached := by
    intro t ha
    rcases hu.attached hs ha with ha | hw
    · rcases h.attached t ha with ⟨he, hc⟩ | hd
      · exact Or.inl ⟨hu.enlisted hs ha he, (hu.linked hs).lasts hc⟩
      · exact Or.inr hd
    · exact absurd hw (hn t)
  waiting := by
    intro t hw he
    rcases hu.unawaited hs he with he | hnone
    · rcases hu.awaits hs hw with hw | ⟨_, hc⟩ | hr
      · exact (h.waiting t hw he).imp_left (hu.linked hs).lasts
      · exact Or.inl hc
      · cases hr
    · exact absurd hw (hnone .attach .waiting)

theorem ReplyFreeMoves.anchored (hu : ReplyFreeMoves s s') (hs : s.Sound) (hn : s.Unanswered)
    (h : s.Anchored duties) : s'.Anchored duties ∧ s'.Unanswered := by
  induction hu with
  | refl => exact ⟨h, hn⟩
  | tail steps step ih =>
    have hs₁ := ReplyFreeMoves.sound steps hs
    exact ⟨step.anchored hs₁ ih.2 ih.1, step.unanswered hs₁ ih.2⟩

/-- A reply attaches nobody by itself. -/
theorem Answer.anchored {d : Desk} {command : String} (ha : Answer s d command s') (hs : s.Sound)
    (routed : ∀ t, d = .tab t → s.Enlisted t) (h : s.Anchored duties) : s'.Anchored duties where
  attentive := (BypassFreeMove.answer ha routed).attentive hs h.attentive
  attached := by
    intro t hat
    rw [ha.attached] at hat
    unfold Enlisted
    rw [ha.registry]
    exact (h.attached t hat).imp_left (And.imp_right ha.linked.lasts)
  waiting := by
    intro t hw he
    unfold Enlisted at he
    rw [ha.registry] at he
    rcases ha.awaits hw with hw | ⟨hr, _⟩
    · exact (h.waiting t hw he).imp_left ha.linked.lasts
    · cases hr

/-! ### The end of attachments -/

theorem Sound.enlisted_iff (hs : s.Sound) {id : TabId} (hid : s.view.ident t = some id) :
    s.Enlisted t ↔ s.registered? id = some t := by
  constructor
  · rintro ⟨k, hm⟩
    obtain rfl : id = k := Option.some.inj (hid.symm.trans (hs.own k t hm))
    exact lookup_of_mem hs.keys hm
  · exact fun h => ⟨id, mem_of_lookup h⟩

/-- The end of a connection that the session hears of reaches every registered instance. -/
theorem Attentive.duties_close (h : s.Attentive) (hc : s.connection.connected = true) :
    s.close.2 = s.registry.map (.detach ·.2) := by
  unfold State.close
  rw [if_pos hc, if_pos (h.listens hc)]

theorem close_of_disconnected (hc : s.connection.connected = false) : s.close = (s, []) := by
  unfold close
  rw [hc]
  rfl

theorem Sound.unanswered_close (hs : s.Sound) (hn : s.Unanswered) : s.close.1.Unanswered := by
  intro t hw
  rcases hs.awaits_close hw with hw | hr
  · exact hn t hw
  · cases hr

theorem Sound.unanswered_perform (hs : s.Sound) (hn : s.Unanswered) (d : Duty) :
    (s.perform d).1.Unanswered := by
  intro t hw
  rcases hs.awaits_perform d hw with ⟨hw, _⟩ | hr
  · exact hn t hw
  · cases hr

theorem mem_of_ne_cons {d e : Duty} (h : e ∈ d :: rest) (hne : e ≠ d) : e ∈ rest :=
  (List.mem_cons.mp h).resolve_left hne

/-- An attached instance that is struck from the registry is to be detached. -/
theorem detach_of_struck {id : TabId} (hr : s.registered? id = some t) (ha : s.isAttached t = true) :
    Duty.detach t ∈ (s.perform (.terminate id)).2 := by
  unfold perform
  simp only [hr, ha, if_true]
  exact List.mem_cons_self ..

/-- Every registered instance is to be detached when the connection closes. -/
theorem Attentive.reached (h : s.Attentive) (hc : s.connection.connected = true) (he : s.Enlisted t) :
    Duty.detach t ∈ s.close.2 := by
  obtain ⟨id, hm⟩ := he
  rw [h.duties_close hc]
  exact List.mem_map.mpr ⟨(id, t), hm, rfl⟩

theorem Moored.close (h : Moored t s duties) (ha : s.Attentive) :
    Moored t s.close.1 (s.close.2 ++ duties) := by
  cases hc : s.connection.connected with
  | false =>
    rw [close_of_disconnected hc]
    exact h
  | true =>
    intro hat
    rw [isAttached_close] at hat
    rcases h hat with ⟨he, _⟩ | hd
    · exact Or.inr (List.mem_append_left _ (ha.reached hc he))
    · exact Or.inr (List.mem_append_right _ hd)

theorem Moored.detach {u : Instance} (h : Moored t s (.detach u :: rest)) :
    Moored t (s.perform (.detach u)).1 ((s.perform (.detach u)).2 ++ rest) := by
  intro hat
  rw [attached_detach] at hat
  split at hat
  · cases hat
  · next hu =>
    unfold Enlisted
    rw [registry_detach, connection_detach]
    refine (h hat).imp_right fun hd => List.mem_append_right _ (mem_of_ne_cons hd ?_)
    exact fun he => hu (Duty.detach.inj he)

theorem Moored.terminate {id : TabId} (h : Moored t s (.terminate id :: rest)) (hs : s.Sound) :
    Moored t (s.perform (.terminate id)).1 ((s.perform (.terminate id)).2 ++ rest) := by
  intro hat
  rw [registry_terminate] at hat ⊢
  change s.isAttached t = true at hat
  rcases h hat with ⟨⟨k, hm⟩, hc⟩ | hd
  · by_cases hk : k = id
    · subst hk
      exact Or.inr (List.mem_append_left _ (detach_of_struck (lookup_of_mem hs.keys hm) hat))
    · exact Or.inl ⟨⟨k, List.mem_filter.mpr ⟨hm, bne_iff_ne.mpr hk⟩⟩, hc⟩
  · exact Or.inr (List.mem_append_right _ (mem_of_ne_cons hd Duty.noConfusion))

theorem Moored.perform {d : Duty} (h : Moored t s (d :: rest)) (hs : s.Sound) (ha : s.Attentive) :
    Moored t (s.perform d).1 ((s.perform d).2 ++ rest) := by
  cases d with
  | detach u => exact h.detach
  | terminate id => exact h.terminate hs
  | closeIfIdle =>
    have h' : Moored t s rest := fun hat => (h hat).imp_right fun hd => mem_of_ne_cons hd Duty.noConfusion
    rw [perform_closeIfIdle]
    split
    · exact h'
    · exact h'.close ha

theorem Moored.unwind (h : Moored t s duties) (hs : s.Sound) (ha : s.Attentive) :
    Moored t (s.unwind duties) [] :=
  (unwind_induction (P := fun s duties => s.Sound ∧ s.Attentive ∧ Moored t s duties)
    (fun _ d _ ⟨hs, ha, h⟩ => ⟨hs.perform d, ha.perform d, h.perform hs ha⟩)
    s duties ⟨hs, ha, h⟩).2.2

/-- What ends leaves no instance attached that has lost its place by it. -/
theorem Moored.fire (h : Moored t s []) (hs : s.Sound) (ha : s.Attentive) (k : Trigger) :
    Moored t (s.fire k) [] := by
  have more : ∀ ds, Moored t s ds := fun ds hat => Or.inl ((h hat).resolve_right List.not_mem_nil)
  cases k with
  | close =>
    have hc := h.close ha
    rw [List.append_nil] at hc
    exact hc.unwind hs.close ha.close
  | detached t => exact (more _).unwind hs ha
  | terminated id => exact (more _).unwind hs ha

theorem Anchored.close (h : s.Anchored duties) : s.close.1.Anchored (s.close.2 ++ duties) where
  attentive := h.attentive.close
  attached := fun t => (h.attached t).close h.attentive
  waiting := by
    intro u hw he
    unfold Enlisted at he
    rw [registry_close] at he
    cases hc : s.connection.connected with
    | false =>
      rw [close_of_disconnected hc] at hw ⊢
      exact h.waiting u hw he
    | true => exact Or.inr (List.mem_append_left _ (h.attentive.reached hc he))

theorem Anchored.detach (h : s.Anchored (.detach t :: rest)) (hs : s.Sound) :
    (s.perform (.detach t)).1.Anchored ((s.perform (.detach t)).2 ++ rest) where
  attentive := h.attentive.perform _
  attached := fun u => (h.attached u).detach
  waiting := by
    intro u hw he
    unfold Enlisted at he
    rw [registry_detach] at he
    rcases hs.awaits_perform (.detach t) hw with ⟨hw, hne⟩ | hr
    · rw [connection_detach]
      refine (h.waiting u hw he).imp_right fun hd => List.mem_append_right _ (mem_of_ne_cons hd ?_)
      rintro hu
      obtain rfl := Duty.detach.inj hu
      exact hne rfl rfl
    · cases hr

theorem Anchored.terminate {id : TabId} (h : s.Anchored (.terminate id :: rest)) (hs : s.Sound) :
    (s.perform (.terminate id)).1.Anchored ((s.perform (.terminate id)).2 ++ rest) where
  attentive := h.attentive.perform _
  attached := fun u => (h.attached u).terminate hs
  waiting := by
    intro u hw he
    rw [registry_terminate] at hw he ⊢
    obtain ⟨k, hm⟩ := he
    refine (h.waiting u hw ⟨k, List.mem_of_mem_filter hm⟩).imp_right fun hd => ?_
    exact List.mem_append_right _ (mem_of_ne_cons hd Duty.noConfusion)

theorem Anchored.perform {d : Duty} (h : s.Anchored (d :: rest)) (hs : s.Sound) :
    (s.perform d).1.Anchored ((s.perform d).2 ++ rest) := by
  cases d with
  | detach t => exact h.detach hs
  | terminate id => exact h.terminate hs
  | closeIfIdle =>
    have h' : s.Anchored rest :=
      ⟨h.attentive, fun u ha => (h.attached u ha).imp_right fun hd => mem_of_ne_cons hd Duty.noConfusion,
        fun u hw he => (h.waiting u hw he).imp_right fun hd => mem_of_ne_cons hd Duty.noConfusion⟩
    rw [perform_closeIfIdle]
    split
    · exact h'
    · exact h'.close

theorem Anchored.unwind (h : s.Anchored duties) (hs : s.Sound) : (s.unwind duties).Anchored [] :=
  (unwind_induction (P := fun s duties => s.Sound ∧ s.Anchored duties)
    (fun _ d _ ⟨hs, h⟩ => ⟨hs.perform d, h.perform hs⟩) s duties ⟨hs, h⟩).2

theorem Sound.unanswered_unwind (hs : s.Sound) (hn : s.Unanswered) (duties : List Duty) :
    (s.unwind duties).Unanswered :=
  (unwind_induction (P := fun s _ => s.Sound ∧ s.Unanswered)
    (fun _ d _ ⟨hs, hn⟩ => ⟨hs.perform d, hs.unanswered_perform hn d⟩) s duties ⟨hs, hn⟩).2

/-- More duties do no harm. -/
theorem Anchored.more (h : s.Anchored []) (duties : List Duty) : s.Anchored duties where
  attentive := h.attentive
  attached := fun u ha => Or.inl ((h.attached u ha).resolve_right List.not_mem_nil)
  waiting := fun u hw he => Or.inl ((h.waiting u hw he).resolve_right List.not_mem_nil)

/-- What ends takes from nobody what it leaves attached. -/
theorem Anchored.fire (h : s.Anchored []) (hs : s.Sound) (hn : s.Unanswered) (k : Trigger) :
    (s.fire k).Anchored [] ∧ (s.fire k).Unanswered := by
  cases k with
  | close =>
    have hc := h.close
    rw [List.append_nil] at hc
    exact ⟨hc.unwind hs.close, hs.close.unanswered_unwind (hs.unanswered_close hn) _⟩
  | detached t => exact ⟨(h.more _).unwind hs, hs.unanswered_unwind hn _⟩
  | terminated id => exact ⟨(h.more _).unwind hs, hs.unanswered_unwind hn _⟩

/-- An action keeps attachments in their place, unless it brings a reply or goes on with one. -/
theorem Anchored.act {a : Action} (h : s.Anchored []) (hs : s.Sound) (hn : s.Unanswered)
    (ha : a.isReplyFree = true ∨ (s.occasion? a).isSome = true) :
    (s.act a).Anchored [] ∧ (s.act a).Unanswered := by
  cases ho : s.occasion? a with
  | none =>
    rw [ho] at ha
    exact (hs.replyFree_act (ha.resolve_right Bool.false_ne_true) ho).anchored hs hn h
  | some o =>
    obtain ⟨hb, hnb⟩ := (replyFree_before ho).anchored hs hn h
    have hsb := (replyFree_before ho).sound hs
    obtain ⟨hf, hnf⟩ := hb.fire hsb hnb o.trigger
    have hsf := (moves_fire o.before o.trigger).sound hsb
    rw [act_of_occasion ho]
    exact (changes_note _ (plain_after ho)).replyFree.anchored hsf hnf hf

end State
end RemoteDebug.Engine
