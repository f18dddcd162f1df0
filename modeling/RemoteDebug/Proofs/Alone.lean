import RemoteDebug.Proofs.Attachment
import RemoteDebug.Proofs.Matching

/-! What a call does by itself.

A call goes on or leaves by its own doing only, and it sends one request at most, when it begins:
whatever else it does leaves the other calls where they are and sends nothing. What comes from outside
leaves the calls as they are. -/
namespace RemoteDebug.Engine
open Protocol Wire

/-- What a call can note, its request aside: nothing is sent, and no debugger reports. -/
def Entry.isOwn : Entry → Bool
  | .sent .. | .event _ (.navigated ..) | .event _ (.closed _) => false
  | _ => true

theorem Action.mayNote_of_isOwn (a : Action) {e : Entry} (own : e.isOwn = true) : a.mayNote e = true := by
  unfold mayNote
  split
  · cases own
  · cases own
  · cases own
  · cases own
  · rfl

namespace State

variable {s s' s'' : State} {c x : Call} {t : Instance}

/-- The journal grows, and no call has sent a request. -/
def Mute (s s' : State) : Prop := ∃ news, s'.journal = s.journal ++ news ∧ asks news = []

theorem Mute.of_eq (journal : s'.journal = s.journal) : Mute s s' :=
  ⟨[], journal.trans (List.append_nil _).symm, rfl⟩

theorem Mute.trans (h : Mute s s') (h' : Mute s' s'') : Mute s s'' := by
  obtain ⟨news, hj, hn⟩ := h
  obtain ⟨news', hj', hn'⟩ := h'
  exact ⟨news ++ news', by rw [hj', hj, List.append_assoc], by rw [asks_append, hn, hn']; rfl⟩

theorem Notes.mute (h : Notes Entry.isOwn s s') : Mute s s' := by
  obtain ⟨news, hj, own⟩ := h
  exact ⟨news, hj, asks_eq_nil_iff.mpr fun _ _ he => by cases own _ he⟩

theorem Parts.own (h : Parts s s') : Notes Entry.isOwn s s' := by
  refine h.imp fun e he => ?_
  unfold Entry.isParting at he
  split at he <;> first | rfl | cases he

/-! ### What a call notes -/

theorem Deed.notes (h : Deed c s s') : Notes Entry.isOwn s s' := by
  cases h with
  | concluded h =>
    cases h with
    | noted e remark => exact .record s (by cases remark <;> rfl)
    | readied about ready => exact .of_eq rfl
    | created about e vacant => exact ⟨[_], rfl, singleton_kind rfl⟩
  | queued => exact .of_eq rfl
  | unmarked => exact .of_eq (journal_unmark s _)
  | quit k => exact .of_eq (journal_quit s c k)
  | retired => exact .of_eq (journal_retire s c)
  | attached t l about => exact ⟨[_], rfl, singleton_kind rfl⟩
  | detached t about => exact (Parts.unwind s _).own.trans (.record _ rfl)
  | unsent m e unsent =>
    have hj := journal_asked s c m
    rw [unsent] at hj
    exact .of_eq (hj.trans (List.append_nil _))

theorem Deeds.notes (h : Deeds c s s') : Notes Entry.isOwn s s' := by
  have hdeed : Deed c ≤ Notes Entry.isOwn := fun _ _ => Deed.notes
  exact Relation.reflTransGen_le_of_le hdeed _ _ h

theorem Deeds.mute (h : Deeds c s s') : Mute s s' := h.notes.mute

theorem Preparation.journal (h : Preparation c s s') : s'.journal = s.journal := by
  cases h with
  | served free => exact journal_ensureService s
  | _ => rfl

theorem Preparations.journal (h : Preparations c s s') : s'.journal = s.journal := by
  induction h with
  | refl => rfl
  | tail _ step ih => exact step.journal.trans ih

theorem journal_lined (s : State) (c : Call) : (s.lined c).journal = s.journal := by
  unfold lined
  split
  · exact journal_changeLock s _ _
  · rfl

/-- A call that does not begin sends nothing. -/
theorem mute_resume (h : ¬ s.Admits c) : Mute s (s.resume c) :=
  (Mute.of_eq (journal_lined s c)).trans (deeds_of_not_admits h).mute

/-- A call that goes on sends its request, or nothing. -/
theorem news_resume (s : State) (c : Call) : Mute s (s.resume c) ∨ ∃ rest,
    (s.resume c).journal = s.journal ++ .sent (some c.id) (s.petition c.request) :: rest ∧ asks rest = [] := by
  obtain ⟨x, prepared, hdone⟩ := deeds_resume s c
  have hx : x.journal = s.journal := (Preparations.journal prepared).trans (journal_lined s c)
  rcases hdone with deeds | ⟨sent, deeds⟩
  · exact Or.inl ((Mute.of_eq hx).trans deeds.mute)
  · obtain ⟨rest, hj, hr⟩ := deeds.mute
    have hasked := journal_asked x c (s.petition c.request)
    rw [sent] at hasked
    refine Or.inr ⟨rest, ?_, hr⟩
    rw [hj, hasked, hx, List.append_assoc]
    rfl

/-! ### What a call does to the calls -/

/-- The other calls stay where they are, and the call stays what it is. -/
structure Alone (c : Call) (s s' : State) : Prop where
  others : ∀ x ∈ s.calls, x.id ≠ c.id → x ∈ s'.calls
  calls : ∀ x ∈ s'.calls, x ∈ s.calls ∨ (x.id = c.id ∧ ∃ y ∈ s.calls, y.id = c.id ∧ y.request = x.request)

theorem Alone.of_eq (calls : s'.calls = s.calls) : Alone c s s' :=
  ⟨fun x hx _ => by rw [calls]; exact hx, fun x hx => Or.inl (by rwa [calls] at hx)⟩

theorem Alone.of_left (calls : s'.calls = s.calls.filter (·.id != c.id)) : Alone c s s' where
  others x hx hne := by
    rw [calls]
    exact List.mem_filter.mpr ⟨hx, bne_iff_ne.mpr hne⟩
  calls x hx := by
    rw [calls] at hx
    exact Or.inl (List.mem_filter.mp hx).1

theorem Alone.trans (h : Alone c s s') (h' : Alone c s' s'') : Alone c s s'' where
  others x hx hne := h'.others x (h.others x hx hne) hne
  calls x hx := by
    rcases h'.calls x hx with hx' | ⟨hid, y, hy, hyid, hreq⟩
    · exact h.calls x hx'
    · rcases h.calls y hy with hy' | ⟨_, z, hz, hzid, hreq'⟩
      · exact Or.inr ⟨hid, y, hy', hyid, hreq⟩
      · exact Or.inr ⟨hid, z, hz, hzid, hreq'.trans hreq⟩

instance (c : Call) : Std.Refl (Alone c) := ⟨fun _ => .of_eq rfl⟩

instance (c : Call) : IsTrans State (Alone c) := ⟨fun _ _ _ => .trans⟩

theorem Alone.setPoint (c : Call) (s : State) (p : Point) : Alone c s (s.setPoint c.id p) where
  others x hx hne := List.mem_map.mpr ⟨x, hx, if_neg hne⟩
  calls x hx := by
    obtain ⟨y, hy, rfl⟩ := List.mem_map.mp hx
    split
    · next hid => exact Or.inr ⟨hid, y, hy, hid, rfl⟩
    · exact Or.inl hy

theorem Alone.asked (c : Call) (s : State) (m : Message) : Alone c s (s.asked c m) := by
  have hjoin : Alone c s (s.join c.request) := .of_eq (by cases c.request <;> rfl)
  have henter : Alone c s (s.enter c) := hjoin.trans (.setPoint c _ _)
  unfold State.asked
  rw [send_eq]
  exact henter.trans (.of_eq rfl)

theorem Preparation.calls (h : Preparation c s s') : s'.calls = s.calls := by
  cases h with
  | served free =>
    unfold State.ensureService
    split <;> rfl
  | _ => rfl

theorem Preparations.calls (h : Preparations c s s') : s'.calls = s.calls := by
  induction h with
  | refl => rfl
  | tail _ step ih => exact step.calls.trans ih

theorem Conclusions.calls (h : Conclusions c s s') : s'.calls = s.calls := by
  induction h with
  | refl => rfl
  | tail _ step ih =>
    refine Eq.trans ?_ ih
    cases step <;> rfl

theorem Deed.alone (h : Deed c s s') : Alone c s s' := by
  cases h with
  | concluded h => cases h <;> exact .of_eq rfl
  | queued => exact .setPoint c s _
  | unmarked => exact .of_eq (by cases c.request <;> rfl)
  | quit k => exact .of_left (calls_quit s c k)
  | retired => exact .of_left (calls_retire s c)
  | attached t l about => exact .of_eq rfl
  | detached t about => exact .of_eq (calls_unwind s _)
  | unsent m e unsent => exact .asked c s m

theorem Alone.resume (c : Call) (s : State) : Alone c s (s.resume c) :=
  resume_of_stages (.of_eq (calls_lined s c)) (fun _ _ h => .of_eq h.calls) (Alone.asked c)
    fun _ _ => Deed.alone

theorem Alone.cancel (s : State) (hid : s.call? c.id = some c) : Alone c s (s.cancel c.id) := by
  have hdeed : Deed c ≤ Alone c := fun _ _ => Deed.alone
  exact Relation.reflTransGen_le_of_le hdeed _ _ (deeds_cancel hid)

/-! ### Actions -/

/-- The calls stay as they are, and no request is sent. -/
def Unmoved (s s' : State) : Prop := s'.calls = s.calls ∧ Mute s s'

theorem Unmoved.of_eq (calls : s'.calls = s.calls) (journal : s'.journal = s.journal) : Unmoved s s' :=
  ⟨calls, .of_eq journal⟩

theorem Unmoved.trans (h : Unmoved s s') (h' : Unmoved s' s'') : Unmoved s s'' :=
  ⟨h'.1.trans h.1, h.2.trans h'.2⟩

instance : Std.Refl Unmoved := ⟨fun _ => .of_eq rfl rfl⟩

instance : IsTrans State Unmoved := ⟨fun _ _ _ => .trans⟩

theorem Incident.unmoved {a : Action} (h : Incident a s s') : Unmoved s s' := by
  cases h with
  | noted es plain may => exact ⟨rfl, es, rfl, asks_of_plain plain⟩
  | answered h heard routed => cases h <;> exact .of_eq rfl rfl
  | _ => exact .of_eq rfl rfl

/-- Whatever comes from outside leaves the calls as they are and sends no request. -/
theorem unmoved_act (s : State) {a : Action} (outside : a.isOutside = true) : Unmoved s (s.act a) :=
  act_of_incidents outside (fun _ _ => Incident.unmoved)
    (fun x d => ⟨calls_perform x d, (Parts.perform x d).own.mute⟩)
    (fun x => ⟨calls_close x, (Parts.close x).own.mute⟩) s

/-- A call stays where it is until it goes on itself or is cancelled. -/
theorem mem_act_of_other (hx : x ∈ s.calls) {a : Action} (resumed : a ≠ .resume x.id)
    (cancelled : a ≠ .cancel x.id) : x ∈ (s.act a).calls := by
  cases a with
  | start id r =>
    simp only [State.act, State.start]
    split
    · exact hx
    · exact List.mem_append_left _ hx
  | resume id =>
    simp only [State.act]
    cases hid : s.call? id with
    | none => exact hx
    | some c =>
      obtain ⟨_, rfl⟩ := call_of_call? hid
      exact (Alone.resume c s).others x hx fun he => resumed (by rw [he])
  | cancel id =>
    cases hid : s.call? id with
    | none =>
      simp only [State.act, State.cancel, hid]
      exact hx
    | some c =>
      obtain ⟨_, rfl⟩ := call_of_call? hid
      exact (Alone.cancel s hid).others x hx fun he => cancelled (by rw [he])
  | _ =>
    rw [(unmoved_act s rfl).1]
    exact hx

/-- A request goes out only when a call goes on, and it is the request of the call. -/
theorem mute_or_sent_act (s : State) (a : Action) : Mute s (s.act a) ∨ ∃ c rest, c ∈ s.calls ∧
    a = .resume c.id ∧
    (s.act a).journal = s.journal ++ .sent (some c.id) (s.petition c.request) :: rest ∧
      asks rest = [] := by
  cases a with
  | start id r =>
    refine Or.inl (.of_eq ?_)
    simp only [State.act, State.start]
    split <;> rfl
  | resume id =>
    simp only [State.act]
    cases hid : s.call? id with
    | none => exact Or.inl (.of_eq rfl)
    | some c =>
      obtain ⟨hc, rfl⟩ := call_of_call? hid
      rcases news_resume s c with hmute | ⟨rest, hj, hr⟩
      · exact Or.inl hmute
      · exact Or.inr ⟨c, rest, hc, rfl, hj, hr⟩
  | cancel id =>
    refine Or.inl ?_
    cases hid : s.call? id with
    | none =>
      simp only [State.act, State.cancel, hid]
      exact .of_eq rfl
    | some c =>
      obtain ⟨_, rfl⟩ := call_of_call? hid
      exact (deeds_cancel hid).mute
  | _ => exact Or.inl (unmoved_act s rfl).2

/-- Whatever an action notes, it can note. -/
theorem notes_act (s : State) (a : Action) : Notes a.mayNote s (s.act a) := by
  have own : ∀ {x y : State}, Notes Entry.isOwn x y → Notes a.mayNote x y :=
    fun h => h.imp fun _ => a.mayNote_of_isOwn
  cases outside : a.isOutside with
  | true =>
    refine act_of_incidents outside (fun x y h => ?_) (fun x d => own (Parts.perform x d).own)
      (fun x => own (Parts.close x).own) s
    cases h with
    | noted es plain may => exact ⟨es, rfl, may⟩
    | answered h heard routed => cases h <;> exact .of_eq rfl
    | _ => exact .of_eq rfl
  | false =>
    cases a with
    | start id r =>
      refine .of_eq ?_
      simp only [State.act, State.start]
      split <;> rfl
    | resume id =>
      simp only [State.act]
      cases hid : s.call? id with
      | none => exact .of_eq rfl
      | some c =>
        refine resume_of_stages (.of_eq (journal_lined s c)) (fun _ _ h => .of_eq h.journal) (fun x m => ?_)
          fun _ _ h => own h.notes
        refine ⟨_, journal_asked x c m, fun e he => ?_⟩
        unfold posted at he
        split at he
        · rw [List.mem_singleton.mp he]
          rfl
        · cases he
    | cancel id =>
      simp only [State.act]
      cases hid : s.call? id with
      | none =>
        simp only [State.cancel, hid]
        exact .of_eq rfl
      | some c =>
        obtain ⟨_, rfl⟩ := call_of_call? hid
        exact own (deeds_cancel hid).notes
    | _ => cases outside

end State
end RemoteDebug.Engine
