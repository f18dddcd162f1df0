import RemoteDebug.Proofs.Reader

/-! The stream of a history, and what is told of a stream.

A history holds what the other side sends, part by part, and when it ends; how it is cut does not matter
(`arrived`). A listener that closes nothing is told of the messages that are read and, if it is reached, of
the end (`delivered`). -/
namespace RemoteDebug.Socket
open Protocol Wire

/-! ### The stream of a history -/

namespace Action

def octets : Action → Octets
  | .arrive octets => octets
  | _ => []

def ends : Action → Bool
  | .finish => true
  | _ => false

def limits : Action → Bool
  | .timedOut => true
  | _ => false

/-- It neither closes the connection nor deals with another stream. -/
def undisturbing : Action → Bool
  | .start _ | .timedOut | .arrive _ | .finish | .turn | .read | .write | .send _ => true
  | _ => false

end Action

/-- The stream has ended. -/
def finished (actions : List Action) : Bool := actions.any (·.ends)

/-- What has arrived before the end of the stream. -/
def arrived (actions : List Action) : Octets := (actions.takeWhile (!·.ends)).flatMap Action.octets

/-- What happens before the time of a start is over. -/
def timely (actions : List Action) : List Action := actions.takeWhile (!·.limits)

section
variable {actions : List Action} {a : Action}

theorem finished_append (actions more : List Action) : finished (actions ++ more) = (finished actions || finished more) :=
  List.any_append

theorem arrived_append (actions more : List Action) :
    arrived (actions ++ more) = arrived actions ++ if finished actions then [] else arrived more := by
  induction actions with
  | nil => rfl
  | cons a actions ih =>
    unfold arrived finished at ih ⊢
    cases ha : a.ends <;> simp [ha, ih]

theorem timely_append (actions more : List Action) :
    timely (actions ++ more) = timely actions ++ if actions.any (·.limits) then [] else timely more := by
  induction actions with
  | nil => rfl
  | cons a actions ih =>
    unfold timely at ih ⊢
    cases ha : a.limits <;> simp [ha, ih]

theorem arrived_concat (actions : List Action) (a : Action) :
    arrived (actions ++ [a]) = arrived actions ++ if finished actions then [] else a.octets := by
  rw [arrived_append]
  cases a <;> simp [arrived, Action.octets, Action.ends]

theorem timely_eq (h : actions.any (·.limits) = false) : timely actions = actions := by
  unfold timely
  rw [List.takeWhile_eq_self_iff]
  simpa using h

/-- As long as neither the stream nor the time has ended, all that arrives counts. -/
theorem arrived_timely_of_open (htime : actions.any (·.limits) = false) (hopen : finished actions = false)
    (more : List Action) : arrived (timely (actions ++ more)) = arrived actions ++ arrived (timely more) := by
  rw [timely_append, htime, timely_eq htime, arrived_append, hopen]
  rfl

/-- The greeting comes back as the first line, before the time is over. -/
def Answered (actions : List Action) : Prop := Text.Utf8.encode greeting <+: arrived (timely actions)

/-- There is a first line, or there will be none before the time is over. -/
def Decided (actions : List Action) : Prop :=
  0x0A ∈ arrived (timely actions) ∨ finished actions = true ∨ actions.any (·.limits) = true

/-- Later octets of a stream do not change its beginning. -/
theorem arrived_timely_append (actions more : List Action) :
    arrived (timely actions) <+: arrived (timely (actions ++ more)) := by
  rw [timely_append, arrived_append]
  exact List.prefix_append ..

theorem Answered.append {actions : List Action} (h : Answered actions) (more : List Action) : Answered (actions ++ more) :=
  h.trans (arrived_timely_append actions more)

theorem Decided.append {actions : List Action} (h : Decided actions) (more : List Action) : Decided (actions ++ more) := by
  rcases h with hline | hfinished | htime
  · exact Or.inl ((arrived_timely_append actions more).subset hline)
  · exact Or.inr (Or.inl (by simp [finished_append, hfinished]))
  · exact Or.inr (Or.inr (by simp [htime]))

end

/-! ### What is told of a stream -/

def messages (rs : List Reading) : List Message :=
  rs.filterMap fun
    | .message m => some m
    | _ => none

/-- The messages, and then the end if it is reached. -/
def delivered (rs : List Reading) : List Heard :=
  (messages rs).map .message ++ if rs.all (·.goesOn) then [] else [.endOfStream, .closed]

theorem filterMap_told? {rs : List Reading} (h : ∀ r ∈ rs, r.goesOn = true) :
    rs.filterMap told? = (messages rs).map .message := by
  induction rs with
  | nil => rfl
  | cons r rs ih =>
    obtain ⟨hr, hrs⟩ := List.forall_mem_cons.mp h
    unfold messages at ih ⊢
    cases r with
    | message m => simp [told?, ih hrs]
    | badBody fault => exact ih hrs
    | _ => cases hr

namespace Listener
variable {l : Listener} {ended : Bool} {input rest : Octets} {r : Reading}

/-- It closes nothing. -/
def Quiet (l : Listener) : Prop := ∀ what, l.closesOn what = false

theorem Quiet.closesAt (h : l.Quiet) (r : Reading) : l.closesAt r = !r.goesOn := by
  unfold Listener.closesAt
  cases told? r <;> simp [h _]

theorem Quiet.hears_available (h : l.Quiet) (ended : Bool) (input : Octets) :
    l.hears false (available ended input).1 = delivered (available ended input).1 := by
  obtain ⟨frames, hframes, ⟨-, havailable⟩ | ⟨last, havailable, hlast⟩⟩ := exists_available ended input
  all_goals
    have hgo : ∀ r ∈ frames, l.closesAt r = false := fun r hr => by simp [h.closesAt, hframes r hr]
    have hall : frames.all (·.goesOn) = true := List.all_eq_true.mpr hframes
    rw [havailable]
  · rw [← List.append_nil frames, hears_of_quiet hgo, filterMap_told? hframes]
    simp [delivered, hears, hall]
  · rw [hears_of_closesAt hgo (by simp [h.closesAt, hlast]), List.filterMap_append, filterMap_told? hframes]
    unfold delivered messages
    cases last with
    | finished => simp [told?, hall, hlast]
    | failed e => simp [told?, hall, hlast]
    | _ => cases hlast

/-- All that the listener is told of these octets, if a reader begins with them. -/
def receives (l : Listener) (ended : Bool) (input : Octets) : List (String × Heard) :=
  (l.hears false (available ended input).1).map (l.name, ·)

theorem Quiet.receives_cons (hl : l.Quiet) (h : next ended input = some (r, rest)) (hr : r.goesOn = true) :
    l.receives ended input = (l.tells false r).map (l.name, ·) ++ l.receives ended rest := by
  unfold receives
  rw [available_cons h hr, hears, hl.closesAt, hr, List.map_append]
  rfl

theorem receives_of_last (l : Listener) (h : next ended input = some (r, rest)) (hr : r.goesOn = false) :
    l.receives ended input = (l.tells false r).map (l.name, ·) := by
  unfold receives
  rw [available_last h hr, hears, hears, List.append_nil]

end Listener

end RemoteDebug.Socket
