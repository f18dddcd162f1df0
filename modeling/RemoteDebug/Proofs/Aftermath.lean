import RemoteDebug.Proofs.Reader

/-! What is heard after the end.

A reader that waits when the connection is closed is stopped there and tells nothing more. One that is
at work is stopped only when it has to wait: if a listener closes the connection while it is told of
something, it is told at once that the connection is closed, and then of all that is buffered behind. -/
namespace RemoteDebug.Socket
open Protocol Wire

namespace State

variable {s t : State} {l : Listener} {link : Link}

/-! ### The reader does not begin again -/

/-- Closed, and no reader is at work or may begin. -/
def Silent (s : State) : Prop := s.phase = .closed ∧ ¬ s.Works

theorem Orderly.silent (h : Orderly s) (hphase : s.phase = .closed) (hidle : s.isReading = false) : Silent s := by
  refine ⟨hphase, ?_⟩
  rintro ⟨link, hlink, hworks⟩
  have hstopping := (h.stopping hphase).resolve_left (by simp [hlink])
  simp [isReading, hlink] at hidle
  simp [hidle, hstopping] at hworks

theorem Deed.silent (hdeed : Deed s t) (h : Silent s) : Silent t ∧ t.heard = s.heard := by
  obtain ⟨hphase, hidle⟩ := h
  cases hdeed with
  | tune link hlink hreading =>
    refine ⟨⟨hphase, ?_⟩, rfl⟩
    rintro ⟨link', hlink', hworks⟩
    obtain rfl : link = link' := by simpa using hlink'
    -- a reader is at work on the new link only if one worked on the old link
    exact hidle (hworks.elim hreading fun hstopping => ⟨_, hlink, Or.inr hstopping⟩)
  | part => exact ⟨⟨hphase, fun ⟨link, hlink, _⟩ => by cases hlink⟩, rfl⟩
  | queue outbound => exact ⟨⟨hphase, hidle⟩, rfl⟩
  | note e hheard => exact ⟨⟨hphase, hidle⟩, by simp [hheard]⟩
  | tell what hworks => exact absurd hworks hidle
  | close =>
    rw [close_of_closed hphase]
    exact ⟨⟨hphase, hidle⟩, rfl⟩

theorem Deeds.silent (hdeeds : Deeds s t) (h : Silent s) : Silent t ∧ t.heard = s.heard := by
  induction hdeeds with
  | refl => exact ⟨h, rfl⟩
  | tail _ hdeed ih =>
    obtain ⟨hsilent, hheard⟩ := Deed.silent hdeed ih.1
    exact ⟨hsilent, hheard.trans ih.2⟩

theorem Silent.act (h : Silent s) (ho : Orderly s) (a : Action) : Silent (s.act a) ∧ (s.act a).heard = s.heard := by
  cases act_does ho.lined a with
  | starts hstarts =>
    refine ⟨⟨hstarts.phase.trans h.1, ?_⟩, hstarts.heard⟩
    unfold Works
    rw [hstarts.link, hstarts.stopping]
    exact h.2
  | connects buffer hwaiting hopen hconnect => exact absurd h.1 hopen
  | listens l => exact ⟨h, rfl⟩
  | closes =>
    change Silent s.close ∧ s.close.heard = s.heard
    rw [close_of_closed h.1]
    exact ⟨h, rfl⟩
  | drops =>
    have hdrop : s.drop = s := by
      unfold drop
      rw [h.1]
    change Silent s.drop ∧ s.drop.heard = s.heard
    rw [hdrop]
    exact ⟨h, rfl⟩
  | deeds hdeeds => exact Deeds.silent hdeeds h

theorem Silent.run (h : Silent s) (ho : Orderly s) (actions : List Action) : (s.run actions).heard = s.heard := by
  induction actions generalizing s with
  | nil => rfl
  | cons a actions ih =>
    obtain ⟨hsilent, hheard⟩ := h.act ho a
    exact (ih hsilent (ho.act a)).trans hheard

/-! ### The reader that is at work goes on -/

/-- What is heard after the end. A reader that waits tells nothing more. A reader that is at work hands out
what is available, and one in whose run the connection is closed tells so right behind the thing at which
it is, and then of the rest; behind that run there is nothing more. -/
theorem aftermath (address : String) (actions more : List Action) :
    let s := State.run { address } actions
    (s.phase = .closed → s.isReading = false → (s.run more).heard = s.heard) ∧
    (s.phase = .connected → s.isReading = false →
      (s.run (.close :: more)).heard = s.heard ++ s.listener.toList.map (·.name, .closed)) ∧
    (∀ l link, s.listener = some l → s.link = some link → s.phase = .closed → s.isReading = true →
      (s.run (.read :: more)).heard = s.heard ++
        ((available link.ended link.buffer).1.filterMap told?).map (l.name, ·)) ∧
    (∀ l link first r rest, .drop ∉ actions → s.listener = some l → s.link = some link → s.phase = .connected →
      (available link.ended link.buffer).1 = first ++ r :: rest →
      (∀ r' ∈ first, l.closesAt r' = false) → l.closesAt r = true →
      (s.run (.read :: more)).heard = s.heard ++
        ((first ++ [r]).filterMap told? ++ .closed :: rest.filterMap told?).map (l.name, ·)) := by
  intro s
  have h : Orderly s := orderly_run address actions
  have hrest {a : Action} (hphase : (s.act a).phase = .closed) (hidle : (s.act a).isReading = false) :
      (s.run (a :: more)).heard = (s.act a).heard :=
    ((h.act a).silent hphase hidle).run (h.act a) more
  refine ⟨fun hphase hidle => (h.silent hphase hidle).run h more, fun hphase hidle => ?_, ?_, ?_⟩
  · rw [hrest (a := .close) (phase_close s) (by simpa [State.act, isReading] using hidle)]
    change s.close.heard = _
    rw [close_of_connected hphase, heard_tell]
    rfl
  · intro l link hlistener hlink hphase hreading
    have hstopping := (h.stopping hphase).resolve_left (by simp [hlink])
    obtain ⟨hserved, hidle⟩ := read_serving ⟨hlink, hlistener, Or.inr ⟨hphase, hstopping, hreading⟩⟩
    rw [hrest (a := .read) (hserved.closes (Or.inl hphase)).1 hidle]
    change s.read.heard = _
    rw [hserved.heard, hphase, ← l.hears_of_closed]
    rfl
  · intro l link first r rest hdrop hlistener hlink hphase havailable hfirst hr
    have hkept : Kept s := Kept.run (fun hs => by cases hs) (orderly_new address) hdrop
    obtain ⟨hserved, hidle⟩ := read_serving ⟨hlink, hlistener, Or.inl ⟨hphase, (hkept hphase).2⟩⟩
    have hover : ∃ r ∈ (available link.ended link.buffer).1, l.closesAt r = true := ⟨r, by simp [havailable], hr⟩
    rw [hrest (a := .read) (hserved.closes (Or.inr hover)).1 hidle]
    change s.read.heard = _
    rw [hserved.heard, hphase, havailable, ← Listener.hears_of_closesAt hfirst hr]
    rfl

/-- A connection that stands, with two messages and the end of the stream behind the greeting. -/
def twoMessages (l : Listener) : List Action :=
  [.listen l, .start 0, .opened,
    .arrive (Text.Utf8.encode greeting ++ encode (.ofHeaders "a" none .null) ++ encode (.ofHeaders "b" none .null)),
    .finish]

/-- A close before the reader begins is the last thing that is heard. -/
theorem aftermath_of_close : (State.run { address := "h:1" } (twoMessages { name := "l" })).phase = .connected ∧
    ((State.run { address := "h:1" } (twoMessages { name := "l" })).run [.close, .read, .turn]).heard =
      [("l", .closed)] :=
  ⟨rfl, (aftermath "h:1" (twoMessages { name := "l" }) [.read, .turn]).2.1 rfl rfl⟩

/-- A listener that closes at the first message is told that the connection is closed, and then of another
message and of the end of the stream. -/
theorem heard_behind_end : (State.run { address := "h:1" } (twoMessages
    { name := "l", closesOn := fun | .message m => m.tool == "a" | _ => false } ++ [.read])).heard =
      [("l", .message (.ofHeaders "a" none .null)), ("l", .closed), ("l", .message (.ofHeaders "b" none .null)),
        ("l", .endOfStream)] :=
  rfl

end State

end RemoteDebug.Socket
