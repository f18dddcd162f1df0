import RemoteDebug.Proofs.Alone
import RemoteDebug.Proofs.Recording

/-! What is sent, and when.

A call sends one message at most, its request, when it begins, and a command that nobody waits for sends
one. An attach asks only while its tab is not attached; a detach and a command go out only while their tab
is attached. Nothing else sends anything. -/
namespace RemoteDebug.Protocol

/-- The commands that a tab passes on for its owner; attach and detach are exchanges of its own. -/
def DebuggerCommand.isPassed : DebuggerCommand → Bool
  | .request _ | .evaluate _ => true
  | .attach | .detach => false

end RemoteDebug.Protocol

namespace RemoteDebug.Engine
open Protocol Wire

/-- A command without a call is one that a tab passes on. -/
def Action.isOffered : Action → Bool
  | .command _ cmd => cmd.isPassed
  | _ => true

namespace State

variable {s s' : State} {c : Call} {t : Instance} {l : Listener} {tab : Tab}

/-! ### How an attach and a detach begin -/

/-- An attach asks if its tab is not attached. -/
theorem beginAttach_of_detached (known : s.tab? t = some tab) (free : tab.attached = false) :
    s.beginAttach c t l = (s.placed t l).ask c (DebuggerCommand.attach.toMessage tab.id) := by
  unfold beginAttach
  dsimp only
  rw [show (if (s.mark t l).alive then (s.mark t l).register t else s.mark t l) = s.placed t l from rfl,
    tab?_placed, known]
  exact if_neg (by rw [free]; exact Bool.false_ne_true)

/-- Else it leaves, with its listener recorded. -/
theorem beginAttach_of_attached (known : s.tab? t = some tab) (attached : tab.attached = true) :
    s.beginAttach c t l =
      ((s.placed t l).unmark c.request).finish c (.handshake (.error .alreadyAttached)) := by
  unfold beginAttach
  dsimp only
  rw [show (if (s.mark t l).alive then (s.mark t l).register t else s.mark t l) = s.placed t l from rfl,
    tab?_placed, known]
  exact if_pos attached

/-- A detach asks if its tab is attached. -/
theorem beginDetach_of_attached (known : s.tab? t = some tab) (attached : tab.attached = true) :
    s.beginDetach c t = s.ask c (DebuggerCommand.detach.toMessage tab.id) := by
  unfold beginDetach
  rw [known]
  exact if_pos attached

theorem beginDetach_of_detached (known : s.tab? t = some tab) (free : tab.attached = false) :
    s.beginDetach c t = s.finish c (.handshake (.error .notAttached)) := by
  unfold beginDetach
  rw [known]
  exact if_neg (by rw [free]; exact Bool.false_ne_true)

/-- In line, a tab has its id and its attachment as before. -/
theorem tab?_lined (known : s.tab? t = some tab) :
    ∃ lock, (s.lined c).tab? t = some { tab with lock } := by
  unfold lined
  split
  · have hmodify : ∀ u (f : List CallId → List CallId), ∃ lock,
        (s.modifyTab u fun x => { x with lock := f x.lock }).tab? t = some { tab with lock } := by
      intro u f
      rw [tab?_modifyTab, known]
      split
      · exact ⟨_, rfl⟩
      · exact ⟨tab.lock, rfl⟩
    cases c.request with
    | attach u m => exact hmodify u (· ++ [c.id])
    | detach u => exact hmodify u (· ++ [c.id])
    | _ => exact ⟨tab.lock, known⟩
  · exact ⟨tab.lock, known⟩

/-! ### Requests -/

/-- An attach of a tab that is attached sends nothing. -/
theorem mute_attach (about : c.request = .attach t l) (known : s.tab? t = some tab)
    (attached : tab.attached = true) : Mute s (s.resume c) := by
  by_cases admits : s.Admits c
  · obtain ⟨lock, hknown⟩ := tab?_lined (c := c) known
    rw [resume_of_admits admits]
    unfold State.begin
    rw [about]
    dsimp only
    rw [beginAttach_of_attached hknown attached]
    have hleft : Mute s (((s.lined c).placed t l).unmark c.request) :=
      .of_eq (by rw [journal_unmark, journal_placed, journal_lined])
    exact hleft.trans (deeds_finish _ (.failed c _)).mute
  · exact mute_resume admits

/-- A detach of a tab that is not attached sends nothing. -/
theorem mute_detach (about : c.request = .detach t) (known : s.tab? t = some tab)
    (free : tab.attached = false) : Mute s (s.resume c) := by
  by_cases admits : s.Admits c
  · obtain ⟨lock, hknown⟩ := tab?_lined (c := c) known
    rw [resume_of_admits admits]
    unfold State.begin
    rw [about]
    dsimp only
    rw [beginDetach_of_detached hknown free]
    exact Mute.trans (.of_eq (journal_lined s c)) (deeds_finish _ (.failed c _)).mute
  · exact mute_resume admits

/-! ### Occasions to send -/

/-- When a message goes out, seen from the state before: a call sends the request that it is, an attach
while its tab is not attached, a detach while its tab is attached; and a command goes to the debugger of a
tab while the tab is attached. -/
inductive Licensed (s : State) : Action → Option CallId → Message → Prop
  | service (c : Call) (mem : c ∈ s.calls) (about : c.request.tab? = none) :
      Licensed s (.resume c.id) (some c.id) (s.petition c.request)
  | attach (c : Call) (t : Instance) (l : Listener) (tab : Tab) (mem : c ∈ s.calls)
      (about : c.request = .attach t l) (known : s.tab? t = some tab) (free : tab.attached = false) :
      Licensed s (.resume c.id) (some c.id) (DebuggerCommand.attach.toMessage tab.id)
  | detach (c : Call) (t : Instance) (tab : Tab) (mem : c ∈ s.calls) (about : c.request = .detach t)
      (known : s.tab? t = some tab) (attached : tab.attached = true) :
      Licensed s (.resume c.id) (some c.id) (DebuggerCommand.detach.toMessage tab.id)
  | command (t : Instance) (tab : Tab) (cmd : DebuggerCommand) (passed : cmd.isPassed = true)
      (known : s.tab? t = some tab) (attached : tab.attached = true) :
      Licensed s (.command t cmd) none (cmd.toMessage tab.id)

/-- A call whose request went out was allowed to send it. -/
theorem Sound.licensed_petition (hs : s.Sound) (hc : c ∈ s.calls) (sent : ¬ Mute s (s.resume c)) :
    s.Licensed (.resume c.id) (some c.id) (s.petition c.request) := by
  cases ht : c.request.tab? with
  | none => exact .service c hc ht
  | some t =>
    obtain ⟨tab, known⟩ := Option.isSome_iff_exists.mp (hs.hasTab hc t ht)
    cases hr : c.request with
    | attach u l =>
      obtain rfl : u = t := by rw [hr] at ht; exact Option.some.inj ht
      have free : tab.attached = false :=
        Bool.eq_false_iff.mpr fun attached => sent (mute_attach hr known attached)
      have h := Licensed.attach c u l tab hc hr known free
      simpa only [petition, known, Option.map_some, Option.getD_some] using h
    | detach u =>
      obtain rfl : u = t := by rw [hr] at ht; exact Option.some.inj ht
      have attached : tab.attached = true := by
        by_contra h
        exact sent (mute_detach hr known (Bool.eq_false_iff.mpr h))
      have h := Licensed.detach c u tab hc hr known attached
      simpa only [petition, known, Option.map_some, Option.getD_some] using h
    | _ =>
      rw [hr] at ht
      cases ht

/-- A command without a call sends at most itself, to a tab that is attached. -/
theorem licensed_command {cmd : DebuggerCommand} (passed : cmd.isPassed = true) :
    ∃ news, (s.act (.command t cmd)).journal = s.journal ++ news ∧
      ∀ asker m, .sent asker m ∈ news → s.Licensed (.command t cmd) asker m := by
  simp only [State.act, State.command]
  cases hf : (s.tab? t).filter (·.attached) with
  | none => exact ⟨[], (List.append_nil _).symm, fun _ _ h => absurd h List.not_mem_nil⟩
  | some tab =>
    obtain ⟨known, attached⟩ := Option.filter_eq_some_iff.mp hf
    have hj : (s.send none (cmd.toMessage tab.id)).1.journal =
        s.journal ++ posted none (cmd.toMessage tab.id) (s.connection.send (cmd.toMessage tab.id)).2 := by
      rw [send_eq]
      rfl
    refine ⟨posted none (cmd.toMessage tab.id) (s.connection.send (cmd.toMessage tab.id)).2, ?_,
      fun asker m hm => ?_⟩
    · rw [← hj]
      dsimp only
      split <;> next h => rw [h]
    · unfold posted at hm
      split at hm
      · cases List.mem_singleton.mp hm
        exact .command t tab cmd passed known attached
      · cases hm

/-- Whatever happens, a message goes out on an occasion to send it only. -/
theorem Sound.licensed_act (hs : s.Sound) {a : Action} (offered : a.isOffered = true) :
    ∃ news, (s.act a).journal = s.journal ++ news ∧
      ∀ asker m, .sent asker m ∈ news → s.Licensed a asker m := by
  by_cases hcommand : ∃ t cmd, a = .command t cmd
  · obtain ⟨t, cmd, rfl⟩ := hcommand
    exact licensed_command offered
  · -- what is sent is the request of a call
    have hnone : ∀ news, (s.act a).journal = s.journal ++ news → ∀ m, .sent none m ∉ news := by
      intro news hj m hm
      obtain ⟨news', hj', may⟩ := notes_act s a
      obtain rfl : news = news' := List.append_cancel_left (hj.symm.trans hj')
      cases a with
      | command t cmd => exact hcommand ⟨t, cmd, rfl⟩
      | _ => cases may _ hm
    rcases mute_or_sent_act s a with ⟨news, hj, hn⟩ | ⟨c, rest, hc, rfl, hj, hrest⟩
    · refine ⟨news, hj, fun asker m hm => ?_⟩
      cases asker with
      | none => exact absurd hm (hnone news hj m)
      | some id => exact absurd hm (asks_eq_nil_iff.mp hn id m)
    · refine ⟨_, hj, fun asker m hm => ?_⟩
      have loud : ¬ Mute s (s.resume c) := by
        rintro ⟨news, hj', hn⟩
        have hact : s.act (.resume c.id) = s.resume c := by simp only [State.act, hs.call?_eq hc]
        rw [← hact, hj, List.append_cancel_left_eq] at hj'
        rw [← hj'] at hn
        cases hn
      cases asker with
      | none => exact absurd hm (hnone _ hj m)
      | some id =>
        rcases List.mem_cons.mp hm with he | hm
        · cases he
          exact hs.licensed_petition hc loud
        · exact absurd hm (asks_eq_nil_iff.mp hrest id m)

end State
end RemoteDebug.Engine
