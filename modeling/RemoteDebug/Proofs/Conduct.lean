import RemoteDebug.Proofs.Alone

/-! What only connect calls do.

The connection is started by connect calls, and the outcome of the version check is noted by them. Nothing
else changes either, except that the connection can close. A call that goes on changes itself and
no other call. -/
namespace RemoteDebug.Engine
open Protocol Wire

namespace State

variable {s s' s'' : State} {c x : Call}

/-- No connection is started, and what is known of the versions is as it was, unless the connection is
gone. -/
structure Level (s s' : State) : Prop where
  starts : s'.connection.starts = s.connection.starts
  ready : (s'.networkReady = s.networkReady ∧ s'.connection.connected = s.connection.connected) ∨
    (s'.connection.connected = false ∧ (s'.networkReady = true → s.networkReady = true))

theorem Level.of_link (starts : s'.connection.starts = s.connection.starts)
    (connected : s'.connection.connected = s.connection.connected)
    (ready : s'.networkReady = s.networkReady) : Level s s' := ⟨starts, Or.inl ⟨ready, connected⟩⟩

theorem Level.of_eq (connection : s'.connection = s.connection)
    (ready : s'.networkReady = s.networkReady) : Level s s' :=
  .of_link (by rw [connection]) (by rw [connection]) ready

theorem Level.refl (s : State) : Level s s := .of_eq rfl rfl

theorem Level.trans (h : Level s s') (h' : Level s' s'') : Level s s'' := by
  refine ⟨h'.starts.trans h.starts, ?_⟩
  rcases h'.ready with ⟨ready', connected'⟩ | ⟨gone', ready'⟩
  · rw [ready', connected']
    exact h.ready
  · refine Or.inr ⟨gone', fun hr => ?_⟩
    rcases h.ready with ⟨ready, _⟩ | ⟨_, ready⟩
    · exact ready ▸ ready' hr
    · exact ready (ready' hr)

instance : Std.Refl Level := ⟨.refl⟩

instance : IsTrans State Level := ⟨fun _ _ _ => .trans⟩

/-! ### Ends -/

theorem Level.close (s : State) : Level s s.close.1 := by
  unfold State.close
  split
  · split
    · exact ⟨rfl, Or.inr ⟨rfl, fun h => by cases h⟩⟩
    · exact ⟨rfl, Or.inr ⟨rfl, id⟩⟩
  · exact .refl s

theorem Level.perform (s : State) (d : Duty) : Level s (s.perform d).1 := by
  cases d with
  | detach u =>
    refine .of_eq (connection_detach s u) ?_
    unfold State.perform
    dsimp only
    split
    · rw [announceDetached_eq]
      rfl
    · rfl
  | terminate id =>
    rw [registry_terminate]
    exact .of_eq rfl rfl
  | closeIfIdle =>
    rw [perform_closeIfIdle]
    split
    · exact .refl s
    · exact .close s

theorem Level.unwind (s : State) (duties : List Duty) : Level s (s.unwind duties) :=
  unwind_of_duties Level.perform s duties

/-! ### Calls -/

theorem ready_changeLock (s : State) (r : Request) (f : List CallId → List CallId) :
    (s.changeLock r f).networkReady = s.networkReady := by
  cases r <;> rfl

theorem ready_quit (s : State) (c : Call) (k : Ticket) :
    (s.quit c k).networkReady = s.networkReady := by
  unfold State.quit State.retire
  rw [ready_changeLock]
  cases c.request <;> rfl

theorem ready_enter (s : State) (c : Call) : (s.enter c).networkReady = s.networkReady := by
  unfold State.enter
  cases c.request <;> rfl

theorem Level.asked (c : Call) (s : State) (m : Message) : Level s (s.asked c m) := by
  unfold State.asked
  rw [send_eq]
  exact .of_link ((starts_send _ m).trans (by rw [connection_enter]))
    ((send_keeps _ m).1.trans (by rw [connection_enter])) (ready_enter s c)

theorem Level.lined (c : Call) (s : State) : Level s (s.lined c) := by
  unfold State.lined
  split
  · exact .of_eq (connection_changeLock s _ _) (ready_changeLock s _ _)
  · exact .refl s

/-- A call starts no connection in its preparations, unless it is a connect call. -/
theorem Preparation.level (h : Preparation c s s') (other : c.request ≠ .connect) : Level s s' := by
  cases h with
  | served free =>
    unfold State.ensureService
    split
    · exact .refl s
    · exact .of_link rfl rfl rfl
  | started about service => exact absurd about other
  | _ => exact .of_eq rfl rfl

theorem Deed.level (h : Deed c s s') (other : c.request ≠ .connect) : Level s s' := by
  cases h with
  | concluded h =>
    cases h with
    | readied about ready => exact absurd about other
    | _ => exact .of_eq rfl rfl
  | queued => exact .of_eq rfl rfl
  | unmarked => exact .of_eq (connection_unmark s _) (by cases c.request <;> rfl)
  | quit k => exact .of_eq (connection_quit s c k) (ready_quit s c k)
  | retired => exact .of_eq (connection_retire s c) (ready_changeLock _ _ _)
  | attached t l about => exact .of_eq rfl rfl
  | detached t about => exact (Level.unwind s _).trans (.of_eq rfl rfl)
  | unsent m e unsent => exact .asked c s m

theorem Level.resume (s : State) (other : c.request ≠ .connect) : Level s (s.resume c) :=
  resume_of_stages (.lined c s) (fun _ _ h => h.level other) (Level.asked c) fun _ _ h => h.level other

theorem Level.cancel (s : State) (id : CallId) : Level s (s.cancel id) := by
  unfold State.cancel
  split
  · exact .refl s
  · next c _ =>
    split
    · exact .of_eq (connection_quit s c _) (ready_quit s c _)
    · exact .of_eq (connection_retire s c) (ready_changeLock _ _ _)

/-- A call that has left is not there. -/
theorem mem_of_mem_retire (hx : x ∈ (s.retire c).calls) : x ∈ s.calls ∧ x.id ≠ c.id := by
  change x ∈ (s.retire c).view.calls at hx
  rw [view_retire] at hx
  exact View.mem_retire.mp hx

/-! ### Actions -/

theorem Incident.level {a : Action} (h : Incident a s s') : Level s s' := by
  cases h with
  | wired c connected listeners closes starts => exact .of_link starts connected rfl
  | answered h heard routed => cases h <;> exact .of_eq rfl rfl
  | _ => exact .of_eq rfl rfl

/-- Whatever happens but the going on of a connect call starts nothing. -/
theorem Level.act (s : State) {a : Action}
    (other : ∀ c ∈ s.calls, c.request = .connect → a ≠ .resume c.id) : Level s (s.act a) := by
  cases a with
  | start id r =>
    simp only [State.act, State.start]
    split <;> exact .of_eq rfl rfl
  | resume id =>
    simp only [State.act]
    cases hid : s.call? id with
    | none => exact .refl s
    | some c =>
      obtain ⟨hc, rfl⟩ := call_of_call? hid
      exact .resume s fun hr => other c hc hr rfl
  | cancel id => exact .cancel s id
  | _ => exact act_of_incidents rfl (fun _ _ => Incident.level) Level.perform Level.close s

/-- A call that is there after an action was there before it, or it was made just now, or it is the one
that went on. -/
theorem Sound.mem_act (hs : s.Sound) {a : Action} (hx : x ∈ (s.act a).calls) :
    x ∈ s.calls ∨ (x.point = .fresh ∧ s.canStart x.id x.request = true) ∨
      ∃ c ∈ s.calls, a = .resume c.id ∧ x.id = c.id ∧ x.request = c.request := by
  cases a with
  | start id r =>
    change x ∈ (s.start id r).calls at hx
    unfold State.start at hx
    split at hx
    · exact Or.inl hx
    · next can =>
      rcases List.mem_append.mp hx with hx | hx
      · exact Or.inl hx
      · rw [List.mem_singleton.mp hx]
        exact Or.inr (Or.inl ⟨rfl, by simpa using can⟩)
  | resume id =>
    simp only [State.act] at hx
    cases hid : s.call? id with
    | none =>
      rw [hid] at hx
      exact Or.inl hx
    | some c =>
      rw [hid] at hx
      obtain ⟨hc, rfl⟩ := call_of_call? hid
      rcases (Alone.resume c s).calls x hx with hx | ⟨hxid, y, hy, hyid, hreq⟩
      · exact Or.inl hx
      · obtain rfl := hs.call_eq hy hc hyid
        exact Or.inr (Or.inr ⟨y, hy, rfl, hxid, hreq.symm⟩)
  | cancel id =>
    change x ∈ (s.cancel id).calls at hx
    unfold State.cancel at hx
    split at hx
    · exact Or.inl hx
    · next c _ =>
      split at hx
      · rw [calls_quit] at hx
        exact Or.inl (List.mem_filter.mp hx).1
      · exact Or.inl (mem_of_mem_retire hx).1
  | _ =>
    rw [(unmoved_act s rfl).1] at hx
    exact Or.inl hx

/-- A call that waits after an action waited before it, or it is the one that went on. -/
theorem Sound.waits_act (hs : s.Sound) {a : Action} {d : Desk} {k : Ticket}
    (hw : (s.act a).view.Waits x d k) :
    s.view.Waits x d k ∨ ∃ c ∈ s.calls, a = .resume c.id ∧ x.id = c.id ∧ x.request = c.request := by
  obtain ⟨hx, hdesk, dl, hp⟩ := hw
  rcases hs.mem_act hx with hold | ⟨fresh, _⟩ | hresumed
  · exact Or.inl ⟨hold, hdesk, dl, hp⟩
  · rw [fresh] at hp
    cases hp
  · exact Or.inr hresumed

end State
end RemoteDebug.Engine
