import Mathlib.Data.List.Chain
import RemoteDebug.Proofs.Cascade
import RemoteDebug.Proofs.Exchange

/-! Every attach that is granted is followed by one detach, and every detach follows one.

The marks of an instance are the attach calls that came back with success and the
times its context heard that it is detached. They take turns, an attach first, in
every history; the instance is attached exactly when the last one is an attach. -/
namespace RemoteDebug.Engine
open Protocol Wire

inductive Mark where
  | attached
  | detached
  deriving DecidableEq

/-- The mark that an entry is for an instance. -/
def Entry.mark? (t : Instance) : Entry → Option Mark
  | .finished _ (.attach u _) (.handshake (.ok ())) => if u = t then some .attached else none
  | .event u .contextDetached => if u = t then some .detached else none
  | _ => none

def marks (t : Instance) (es : List Entry) : List Mark := es.filterMap (Entry.mark? t)

def Entry.event? (t : Instance) : Entry → Option TabEvent
  | .event u e => if u = t then some e else none
  | _ => none

/-- The events of an instance. -/
def tabEvents (t : Instance) (es : List Entry) : List TabEvent := es.filterMap (Entry.event? t)

/-- The collaborators of a tab hear that it is detached. -/
def TabEvent.isFarewell : TabEvent → Bool
  | .contextDetached | .disconnected _ => true
  | _ => false

/-- Marks that take turns, an attach first, and whether the last of them is an attach. -/
inductive Turns : Bool → List Mark → Prop
  | nil : Turns false []
  | attached {ms : List Mark} (h : Turns false ms) : Turns true (ms ++ [.attached])
  | detached {ms : List Mark} (h : Turns true ms) : Turns false (ms ++ [.detached])

theorem Turns.count {b : Bool} {ms : List Mark} (h : Turns b ms) :
    ms.count .attached = ms.count .detached + if b then 1 else 0 := by
  induction h with
  | nil => rfl
  | attached h ih => simp_all
  | detached h ih => simp_all

theorem Turns.getLast? {b : Bool} {ms : List Mark} (h : Turns b ms) :
    ∀ m ∈ ms.getLast?, m = if b then .attached else .detached := by
  intro m hm
  cases h with
  | nil => cases hm
  | attached h => simp_all
  | detached h => simp_all

theorem Turns.isChain {b : Bool} {ms : List Mark} (h : Turns b ms) : ms.IsChain (· ≠ ·) := by
  induction h with
  | nil => exact .nil
  | attached h ih =>
    refine List.isChain_append.mpr ⟨ih, .singleton _, fun x hx y hy => ?_⟩
    obtain rfl := Option.some.inj hy
    rw [h.getLast? x hx]
    decide
  | detached h ih =>
    refine List.isChain_append.mpr ⟨ih, .singleton _, fun x hx y hy => ?_⟩
    obtain rfl := Option.some.inj hy
    rw [h.getLast? x hx]
    decide

theorem Turns.ne_nil {ms : List Mark} (h : Turns true ms) : ms ≠ [] := by
  cases h
  simp

theorem Turns.head? {b : Bool} {ms : List Mark} (h : Turns b ms) : ∀ m ∈ ms.head?, m = .attached := by
  induction h with
  | nil =>
    intro m hm
    cases hm
  | attached h ih =>
    intro m hm
    rw [List.head?_append] at hm
    rcases Option.or_eq_some_iff.mp hm with hm | ⟨_, hm⟩
    · exact ih m hm
    · exact (Option.some.inj hm).symm
  | detached h ih =>
    intro m hm
    rw [List.head?_append] at hm
    rcases Option.or_eq_some_iff.mp hm with hm | ⟨hn, _⟩
    · exact ih m hm
    · exact absurd (List.head?_eq_none_iff.mp hn) h.ne_nil

theorem marks_append (t : Instance) (a b : List Entry) : marks t (a ++ b) = marks t a ++ marks t b :=
  List.filterMap_append

theorem tabEvents_append (t : Instance) (a b : List Entry) :
    tabEvents t (a ++ b) = tabEvents t a ++ tabEvents t b :=
  List.filterMap_append

/-- Marks and events of an instance are of that instance. -/
theorem filterMap_isOf {β : Type} (t : Instance) (f : Entry → Option β)
    (h : ∀ e, e.isOf t = false → f e = none) (es : List Entry) :
    (es.filter (·.isOf t)).filterMap f = es.filterMap f := by
  rw [List.filterMap_filter]
  congr 1
  funext e
  cases ho : e.isOf t with
  | true => rfl
  | false => exact (h e ho).symm

theorem marks_filter (t : Instance) (es : List Entry) :
    marks t (es.filter (·.isOf t)) = marks t es := by
  refine filterMap_isOf t _ (fun e h => ?_) es
  unfold Entry.isOf at h
  unfold Entry.mark?
  split <;> simp_all

theorem tabEvents_filter (t : Instance) (es : List Entry) :
    tabEvents t (es.filter (·.isOf t)) = tabEvents t es := by
  refine filterMap_isOf t _ (fun e h => ?_) es
  unfold Entry.isOf at h
  unfold Entry.event?
  split <;> simp_all

namespace State

variable {s s' : State}

/-! ### Moves without an end -/

/-- What a move without an end adds to the journal: nobody is told of a detach, and a mark at most where an
instance that was not attached now is. -/
structure Steady (s s' : State) (news : List Entry) : Prop where
  journal : s'.journal = s.journal ++ news
  quiet : ∀ t, ∀ e ∈ tabEvents t news, e.isFarewell = false
  each : ∀ t, (marks t news = [] ∧ s'.isAttached t = s.isAttached t) ∨
    (marks t news = [.attached] ∧ s.isAttached t = false ∧ s'.isAttached t = true)

theorem marks_of_quiet {es : List Entry} (quiet : ∀ e ∈ es, e.isQuiet = true) (t : Instance) :
    marks t es = [] := by
  refine List.filterMap_eq_nil_iff.mpr fun e he => ?_
  have hq := quiet e he
  unfold Entry.isQuiet at hq
  unfold Entry.mark?
  split <;> simp_all

theorem no_farewell_of_quiet {es : List Entry} (quiet : ∀ e ∈ es, e.isQuiet = true) (t : Instance) :
    ∀ e ∈ tabEvents t es, e.isFarewell = false := by
  intro w hw
  obtain ⟨e, he, hew⟩ := List.mem_filterMap.mp hw
  have hq := quiet e he
  unfold Entry.event? at hew
  split at hew
  · next u x =>
    split at hew
    · obtain rfl := Option.some.inj hew
      cases x <;> first | rfl | cases hq
    · cases hew
  · cases hew

theorem Still.steady (h : Still s s') : ∃ news, Steady s s' news := by
  obtain ⟨news, journal, quiet, attached⟩ := h
  exact ⟨news, journal, no_farewell_of_quiet quiet,
    fun t => Or.inl ⟨marks_of_quiet quiet t, congrFun attached t⟩⟩

theorem Sound.steady_granted (hs : s.Sound) {c : Call} {t : Instance} {l : Listener} {k : Ticket}
    {d : Nat} (hc : c ∈ s.calls) (about : c.request = .attach t l) (waits : c.point = .awaiting k d) :
    Steady s (s.granted c t k) [.finished c.id c.request (.handshake (.ok ()))] where
  journal := by
    show (s.quit c k).journal ++ _ = _
    rw [journal_quit]
  quiet := fun u e he => by cases he
  each := by
    have hw := waits_of_point hc waits
    intro u
    rw [attached_granted hs hc about, about]
    by_cases hu : u = t
    · subst hu
      refine Or.inr ⟨?_, hs.unattached c _ k u l hw about, if_pos rfl⟩
      simp [marks, Entry.mark?]
    · refine Or.inl ⟨?_, if_neg hu⟩
      simp [marks, Entry.mark?, Ne.symm hu]

theorem Change.steady (h : Change s s') (hs : s.Sound) : ∃ news, Steady s s' news := by
  rcases h.still_or_granted hs with h | ⟨c, t, l, k, d, v, mem, about, waits, _, rfl⟩
  · exact h.steady
  · exact ⟨_, hs.steady_granted mem about waits⟩

theorem Answer.still {d : Desk} {command : String} (h : Answer s d command s') : Still s s' := by
  refine .silent ?_ (by rw [h.view]; rfl)
  cases h <;> rfl

theorem ReplyFreeMove.steady (h : ReplyFreeMove s s') (hs : s.Sound) : ∃ news, Steady s s' news := by
  cases h with
  | change h => exact h.steady hs
  | opened id r can => exact Still.steady (.silent rfl rfl)
  | wired c connected listeners closes => exact Still.steady (.silent rfl rfl)
  | tweaked t f keeps =>
    exact Still.steady (.silent rfl (congrArg View.attached (view_modifyTab_keeps s t keeps)))
  | aged ms => exact Still.steady (.silent rfl rfl)
  | separated => exact Still.steady (.silent rfl rfl)

theorem BypassFreeMove.steady (h : BypassFreeMove s s') (hs : s.Sound) : ∃ news, Steady s s' news := by
  cases h with
  | replyFree h => exact h.steady hs
  | answer h routed => exact h.still.steady

theorem EndFreeMove.steady (h : EndFreeMove s s') (hs : s.Sound) : ∃ news, Steady s s' news := by
  cases h with
  | bypassFree h => exact h.steady hs
  | handed h => exact h.still.steady
  | dropped => exact Still.steady (.silent rfl rfl)

/-- The marks of every instance have taken turns so far. -/
def Paired (s : State) : Prop := ∀ t, Turns (s.isAttached t) (marks t s.journal)

theorem Steady.paired {news : List Entry} (h : Steady s s' news) (hp : s.Paired) : s'.Paired := by
  intro t
  have hold := hp t
  rw [h.journal, marks_append]
  rcases h.each t with ⟨hm, ha⟩ | ⟨hm, ha, ha'⟩
  · rw [hm, ha, List.append_nil]
    exact hold
  · rw [hm, ha']
    rw [ha] at hold
    exact hold.attached

theorem Ended.paired {news : List Entry} (h : Ended s s' news) (hp : s.Paired) : s'.Paired := by
  intro t
  have hold := hp t
  rw [h.journal, marks_append, ← marks_filter t news]
  rcases h.each t with ⟨ha, hn⟩ | ⟨ha, ha', hn⟩
  · rw [hn, ha]
    exact (List.append_nil _).symm ▸ hold
  · have hm : marks t (s.farewell t) = [.detached] := by
      unfold farewell told
      split <;> simp [marks, Entry.mark?]
    rw [hn, hm, ha']
    rw [ha] at hold
    exact hold.detached

theorem EndFreeMoves.paired (h : EndFreeMoves s s') (hs : s.Sound) (hp : s.Paired) :
    s'.Paired ∧ ∃ news, s'.journal = s.journal ++ news ∧
      ∀ t, ∀ e ∈ tabEvents t news, e.isFarewell = false := by
  induction h with
  | refl =>
    refine ⟨hp, [], (List.append_nil _).symm, fun t e he => ?_⟩
    cases he
  | tail steps step ih =>
    obtain ⟨hp', news, hj, hq⟩ := ih
    obtain ⟨more, hm⟩ := step.steady (EndFreeMoves.sound steps hs)
    refine ⟨hm.paired hp', news ++ more, by rw [hm.journal, hj, List.append_assoc], fun t e he => ?_⟩
    rw [tabEvents_append] at he
    rcases List.mem_append.mp he with he | he
    · exact hq t e he
    · exact hm.quiet t e he

/-! ### Actions -/

theorem tabEvents_after {a : Action} {o : Occasion} (h : s.occasion? a = some o) (t : Instance) :
    tabEvents t o.after = [] := by
  rcases after_of_occasion h with hn | ⟨id, u, hd⟩
  · rw [hn]
    rfl
  · rw [hd]
    rfl

/-- Whatever ends, an instance hears of it only if it was attached: its context first, and then the
listener that was recorded. -/
theorem Ended.heard {news : List Entry} (he : Ended s s' news) (hs : s.Sound) (t : Instance) :
    (s'.isAttached t = s.isAttached t ∧ tabEvents t news = []) ∨
      (s.isAttached t = true ∧ s'.isAttached t = false ∧ ∃ l, s.view.listener t = some l ∧
        tabEvents t news = [.contextDetached, .disconnected l]) := by
  rw [← tabEvents_filter t news]
  rcases he.each t with ⟨hsame, hn⟩ | ⟨ha, hgone, hn⟩
  · rw [hn]
    exact Or.inl ⟨hsame, rfl⟩
  · obtain ⟨l, hl⟩ := Option.isSome_iff_exists.mp (hs.listening t ha)
    refine Or.inr ⟨ha, hgone, l, hl, ?_⟩
    rw [hn, farewell_of_listener hl]
    simp [tabEvents, Entry.event?]

/-- What one action has an instance hear: at most one farewell, from the context first and then to
the listener that was recorded, and nothing after it. -/
theorem Sound.act_paired (hs : s.Sound) (hp : s.Paired) (a : Action) :
    (s.act a).Paired ∧ ∃ news, (s.act a).journal = s.journal ++ news ∧
      ∀ t, ∃ lead, (∀ e ∈ lead, e.isFarewell = false) ∧
        (tabEvents t news = lead ∨ ∃ l, (s.tab? t).bind (·.listener) = some l ∧
          tabEvents t news = lead ++ [.contextDetached, .disconnected l]) := by
  cases h : s.occasion? a with
  | none =>
    obtain ⟨hp', news, hj, hq⟩ := (hs.endFree_act h).paired hs hp
    exact ⟨hp', news, hj, fun t => ⟨_, hq t, Or.inl rfl⟩⟩
  | some o =>
    have hfree := (replyFree_before h).bypassFree.endFree
    have hsb := hfree.sound hs
    obtain ⟨hpb, lead, hj, hq⟩ := hfree.paired hs hp
    obtain ⟨news, he⟩ := ended_fire o.before o.trigger
    have hquiet : ∀ e ∈ o.after, e.isQuiet = true := fun e he =>
      Entry.isQuiet_of_isPlain (plain_after h e he)
    have hsteady : Steady (o.before.fire o.trigger) ((o.before.fire o.trigger).note o.after) o.after :=
      ⟨rfl, no_farewell_of_quiet hquiet, fun t => Or.inl ⟨marks_of_quiet hquiet t, rfl⟩⟩
    rw [act_of_occasion h]
    refine ⟨hsteady.paired (he.paired hpb), lead ++ (news ++ o.after), ?_, fun t => ?_⟩
    · rw [hsteady.journal, he.journal, hj, List.append_assoc, List.append_assoc]
    · refine ⟨tabEvents t lead, hq t, ?_⟩
      rw [tabEvents_append, tabEvents_append, tabEvents_after h, List.append_nil]
      rcases he.heard hsb t with ⟨_, hn⟩ | ⟨_, _, l, hl, hn⟩
      · refine Or.inl ?_
        rw [hn]
        exact List.append_nil _
      · obtain ⟨_, _, _, hview⟩ := hs.view_before h
        rw [hview] at hl
        exact Or.inr ⟨l, hl, by rw [hn]⟩

theorem paired_run (s : State) (hs : s.Sound) (hp : s.Paired) (actions : List Action) :
    (s.run actions).Paired := by
  induction actions generalizing s with
  | nil => exact hp
  | cons a rest ih => exact ih (s.act a) (hs.act a) (hs.act_paired hp a).1

theorem paired_initial (config : Config) (restartable : Bool) (rules : List (String × Json)) :
    (initial config restartable rules).Paired := fun _ => .nil

/-- In every history the attach calls of an instance that succeed and the detaches that its context
hears of take turns, an attach first, and there is one more of the former exactly while the instance
is attached; and whatever comes next, a detach is told to the context and then at once to the
listener recorded at that moment, and nothing more is told of the instance in that step. -/
theorem attaches_pair_with_detaches (config : Config) (restartable : Bool)
    (rules : List (String × Json)) (actions : List Action) (t : Instance) :
    let s := (initial config restartable rules).run actions
    (marks t s.journal).count .attached =
        (marks t s.journal).count .detached + (if s.isAttached t then 1 else 0) ∧
      (marks t s.journal).IsChain (· ≠ ·) ∧
      (∀ m ∈ (marks t s.journal).head?, m = .attached) ∧
      ∀ a, ∃ news, (s.act a).journal = s.journal ++ news ∧
        ∃ lead, (∀ e ∈ lead, e.isFarewell = false) ∧
          (tabEvents t news = lead ∨ ∃ l, (s.tab? t).bind (·.listener) = some l ∧
            tabEvents t news = lead ++ [.contextDetached, .disconnected l]) := by
  intro s
  have h₀ := sound_initial config restartable rules
  have hs : s.Sound := h₀.run actions
  have hp : s.Paired := paired_run _ h₀ (paired_initial config restartable rules) actions
  refine ⟨(hp t).count, (hp t).isChain, (hp t).head?, fun a => ?_⟩
  obtain ⟨_, news, hj, hn⟩ := hs.act_paired hp a
  exact ⟨news, hj, hn t⟩

end State
end RemoteDebug.Engine
