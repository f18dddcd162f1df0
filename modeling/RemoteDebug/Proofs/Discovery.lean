import Mathlib.Data.List.Forall2
import RemoteDebug.Proofs.Identity

/-! What a discovery comes to.

A discovery purges the registry, asks for the list of tabs, and takes up the list when it hears it:
for each listed tab, in the order of the list, it shows the live instance of the id if there is one,
and a new instance else. A new instance is not live, so which ids have a live one does not change on
the way: that carries every induction here. A discovery that ends in any other way makes nothing and
registers nothing. -/
namespace RemoteDebug.Protocol

/-- What a list of tabs looks like: the result is OK, and the data are an array with a pair for each
tab. -/
def ServiceResponse.Lists (response : ServiceResponse) (entries : List TabEntry) : Prop :=
  response.result.isOk = true ∧ ∃ items, response.data = .arr items ∧
    List.Forall₂ (fun item e => TabEntry.ofJson item = .ok e) items entries

end RemoteDebug.Protocol

namespace RemoteDebug.Engine
open Protocol Wire

theorem mapM_eq_ok_iff {α β ε : Type} (f : α → Except ε β) {xs : List α} {ys : List β} :
    xs.mapM f = .ok ys ↔ List.Forall₂ (fun x y => f x = .ok y) xs ys := by
  induction xs generalizing ys with
  | nil =>
    rw [List.mapM_nil, List.forall₂_nil_left_iff]
    exact ⟨fun h => (Except.ok.inj h).symm, fun h => congrArg Except.ok h.symm⟩
  | cons x xs ih =>
    rw [List.mapM_cons, List.forall₂_cons_left_iff]
    cases hx : f x with
    | error e => exact ⟨nofun, nofun⟩
    | ok y =>
      cases hxs : xs.mapM f with
      | error e =>
        refine ⟨nofun, fun ⟨_, zs, _, h, _⟩ => ?_⟩
        rw [ih.mpr h] at hxs
        cases hxs
      | ok zs =>
        refine ⟨fun h => ⟨y, zs, rfl, ih.mp hxs, (Except.ok.inj h).symm⟩, ?_⟩
        rintro ⟨_, zs', ⟨⟩, h, rfl⟩
        rw [ih.mpr h] at hxs
        cases hxs
        rfl

theorem tabs_eq_ok_iff {response : ServiceResponse} {entries : List TabEntry} :
    response.tabs = .ok entries ↔ ∃ items, response.data = .arr items ∧
      List.Forall₂ (fun item e => TabEntry.ofJson item = .ok e) items entries := by
  unfold ServiceResponse.tabs
  cases response.data with
  | arr items =>
    refine (mapM_eq_ok_iff TabEntry.ofJson).trans ⟨fun h => ⟨items, rfl, h⟩, ?_⟩
    rintro ⟨_, ⟨⟩, h⟩
    exact h
  | _ => exact ⟨nofun, nofun⟩

namespace State

variable {s s' : State} {c : Call} {t : Instance} {id : TabId}

/-- The first entry that is malformed, wherever it stands, refuses the whole list. -/
theorem listing_eq_ok_iff {response : ServiceResponse} {entries : List TabEntry} :
    listing (.ok response) = .ok entries ↔ response.Lists entries := by
  unfold ServiceResponse.Lists
  rw [← tabs_eq_ok_iff]
  unfold listing checked
  dsimp only
  split
  · next hok =>
    cases htabs : response.tabs with
    | ok es =>
      simp only [bind, Except.bind, htabs]
      exact ⟨fun h => ⟨hok, congrArg _ (Except.ok.inj h)⟩, fun h => congrArg _ (Except.ok.inj h.2)⟩
    | error cause =>
      simp only [bind, Except.bind, htabs]
      exact iff_of_false (fun h => by cases h) fun h => by cases h.2
  · next hok => exact iff_of_false (fun h => by cases h) fun h => hok h.1

/-! ### One listed tab -/

/-- The live instance that is registered under an id. -/
def present? (s : State) (id : TabId) : Option Instance := (s.registered? id).filter s.isLive

theorem present?_eq_some : s.present? id = some t ↔ s.registered? id = some t ∧ s.isLive t = true :=
  Option.filter_eq_some_iff

theorem adopt_of_present {e : TabEntry} (hp : s.present? e.id = some t) : s.adopt e = (s, t) := by
  obtain ⟨hr, live⟩ := present?_eq_some.mp hp
  unfold adopt
  rw [hr]
  exact if_pos live

theorem adopt_of_absent {e : TabEntry} (hp : s.present? e.id = none) : s.adopt e = s.create e := by
  rcases adopt_cases s e with ⟨u, hr, live, _⟩ | ⟨_, h⟩
  · rw [present?_eq_some.mpr ⟨hr, live⟩] at hp
    cases hp
  · exact h

theorem length_create (s : State) (e : TabEntry) : (s.create e).1.tabs.length = s.tabs.length + 1 :=
  List.length_append

/-- A new instance is not live, and no live one goes. -/
theorem isLive_create (s : State) (e : TabEntry) : (s.create e).1.isLive = s.isLive := by
  funext t
  unfold isLive
  rw [tab?_create]
  split
  · next h =>
    rw [h, tab?_length]
    rfl
  · rfl

theorem present?_create {e : TabEntry} (vacant : s.present? e.id = none) (id : TabId) :
    (s.create e).1.present? id = s.present? id := by
  show ((assign e.id s.tabs.length s.registry).lookup id).filter (s.create e).1.isLive = _
  rw [isLive_create, lookup_assign]
  split
  · next h =>
    rw [h, vacant, Option.filter_some, if_neg]
    unfold isLive
    rw [tab?_length]
    exact Bool.false_ne_true
  · rfl

theorem present?_adopt (s : State) (e : TabEntry) (id : TabId) :
    (s.adopt e).1.present? id = s.present? id := by
  cases hp : s.present? e.id with
  | some t => rw [adopt_of_present hp]
  | none =>
    rw [adopt_of_absent hp]
    exact present?_create hp id

theorem lt_length_of_live (live : s.isLive t = true) : t < s.tabs.length := by
  unfold isLive at live
  by_contra h
  rw [show s.tab? t = none from List.getElem?_eq_none (Nat.le_of_not_lt h)] at live
  cases live

/-! ### All listed tabs -/

/-- How a discovery shows a listed tab: the live instance of its id, as it stands, or a new one. -/
def Shows (s : State) (e : TabEntry) (l : Listed) : Prop :=
  l.id = e.id ∧ match s.present? e.id with
    | some t => s.listed? t = some l
    | none => s.tabs.length ≤ l.tab ∧ l.url = e.url ∧ l.attached = false

/-- The items of a listing whose instance is new. -/
def novel (s : State) (ls : List Listed) : List Listed := ls.filter (s.tabs.length ≤ ·.tab)

/-- The contexts that are made for a listing, one for each new instance. -/
def creations (s : State) (ls : List Listed) : List Entry :=
  (s.novel ls).map fun l => .event l.tab (.created l.id l.url)

/-- What becomes of the tabs and of the registry when a list of tabs is taken up. -/
structure TakesUp (s : State) (entries : List TabEntry) (s' : State) (ls : List Listed) : Prop where
  /-- Each listed tab is shown once, in the order of the list. -/
  shown : List.Forall₂ s.Shows entries ls
  /-- The new instances come after the known ones, each for itself. -/
  numbered : (s.novel ls).map (·.tab) = List.range' s.tabs.length (s.novel ls).length
  tabs : s'.tabs = s.tabs ++ (s.novel ls).map fun l => { id := l.id, url := l.url }
  /-- An id that is listed gets the instance that is shown for it last, any other keeps its own. -/
  registered : ∀ id, s'.registered? id =
    ((ls.filter (·.id = id)).getLast?.map (·.tab)).or (s.registered? id)


/-- A present instance is shown by the number that it has. -/
theorem Shows.tab_of_present {e : TabEntry} {l : Listed} (h : s.Shows e l)
    (hp : s.present? e.id = some t) : l.tab = t := by
  have hl := h.2
  rw [hp] at hl
  obtain ⟨tab, _, rfl⟩ := Option.map_eq_some_iff.mp hl
  rfl

/-- What is shown once a tab has been taken up is shown as it was before, and its instance is not the one
that the tab got if that is new. -/
theorem Shows.of_adopt {e e' : TabEntry} {l : Listed} (h : (s.adopt e).1.Shows e' l) :
    s.Shows e' l ∧ (s.present? e.id = none → l.tab ≠ s.tabs.length) := by
  obtain ⟨hid, hl⟩ := h
  rw [present?_adopt] at hl
  cases he : s.present? e.id with
  | some t =>
    rw [adopt_of_present he] at hl
    exact ⟨⟨hid, hl⟩, nofun⟩
  | none =>
    rw [adopt_of_absent he] at hl
    unfold Shows
    cases hp : s.present? e'.id with
    | none =>
      rw [hp] at hl
      have hlt := hl.1
      rw [length_create] at hlt
      exact ⟨⟨hid, Nat.le_of_lt hlt, hl.2⟩, fun _ => Nat.ne_of_gt hlt⟩
    | some t =>
      rw [hp] at hl
      have hlt : t < s.tabs.length := lt_length_of_live (present?_eq_some.mp hp).2
      have hsame : (s.create e).1.listed? t = s.listed? t := by
        unfold listed?
        rw [tab?_create, if_neg (Nat.ne_of_lt hlt)]
      refine ⟨⟨hid, hsame.symm.trans hl⟩, fun _ => ?_⟩
      obtain ⟨tab, _, rfl⟩ := Option.map_eq_some_iff.mp hl
      exact Nat.ne_of_lt hlt

theorem novel_cons (s : State) (l : Listed) (ls : List Listed) :
    s.novel (l :: ls) = if s.tabs.length ≤ l.tab then l :: s.novel ls else s.novel ls := by
  unfold novel
  rw [List.filter_cons]
  simp only [decide_eq_true_eq]

/-- The items that are new once a tab has been taken up are those that were new before. -/
theorem novel_adopt {e : TabEntry} {entries : List TabEntry} {ls : List Listed}
    (shown : List.Forall₂ (s.adopt e).1.Shows entries ls) :
    (s.adopt e).1.novel ls = s.novel ls := by
  induction shown with
  | nil => rfl
  | cons h _ ih =>
    rw [novel_cons, novel_cons, ih]
    cases hp : s.present? e.id with
    | some t => rw [adopt_of_present hp]
    | none =>
      have hne := h.of_adopt.2 hp
      rw [adopt_of_absent hp, length_create]
      exact ite_congr (propext ⟨Nat.le_of_succ_le, fun hle => Nat.lt_of_le_of_ne hle (Ne.symm hne)⟩)
        (fun _ => rfl) fun _ => rfl

/-- The one that is shown last for an id, when an item more comes first. -/
theorem getLast?_filter_cons (l : Listed) (ls : List Listed) (id : TabId) :
    (((l :: ls).filter (·.id = id)).getLast?).map (·.tab) =
      ((ls.filter (·.id = id)).getLast?.map (·.tab)).or (if l.id = id then some l.tab else none) := by
  rw [List.filter_cons]
  by_cases h : l.id = id
  · simp only [h, decide_true, if_true]
    rw [List.getLast?_cons]
    cases (ls.filter (·.id = id)).getLast? <;> rfl
  · simp only [h, decide_false, Bool.false_eq_true, if_false, Option.or_none]

theorem TakesUp.cons_of_present {e : TabEntry} {entries : List TabEntry} {l : Listed}
    {ls : List Listed} (hp : s.present? e.id = some t) (hid : l.id = e.id) (hl : s.listed? t = some l)
    (h : s.TakesUp entries s' ls) : s.TakesUp (e :: entries) s' (l :: ls) := by
  obtain ⟨hr, live⟩ := present?_eq_some.mp hp
  have shows : s.Shows e l := ⟨hid, by rw [hp]; exact hl⟩
  have htab : l.tab = t := shows.tab_of_present hp
  have hnovel : s.novel (l :: ls) = s.novel ls := by
    rw [novel_cons, if_neg (by rw [htab]; exact Nat.not_le_of_lt (lt_length_of_live live))]
  refine ⟨.cons shows h.shown, hnovel ▸ h.numbered, hnovel ▸ h.tabs, fun id => ?_⟩
  rw [h.registered id, getLast?_filter_cons, Option.or_assoc]
  congr 1
  split
  · next heq => rw [← heq, hid, hr, htab]; rfl
  · rfl

/-- A listed tab without a live instance gets a new one, and the list goes on. -/
theorem TakesUp.cons_of_absent {e : TabEntry} {entries : List TabEntry} {l : Listed} {ls : List Listed}
    (hp : s.present? e.id = none) (hl : l = ⟨e.id, e.url, false, s.tabs.length⟩)
    (h : (s.create e).1.TakesUp entries s' ls) : s.TakesUp (e :: entries) s' (l :: ls) := by
  subst hl
  have hadopt : (s.adopt e).1 = (s.create e).1 := by rw [adopt_of_absent hp]
  have shown := h.shown
  have numbered := h.numbered
  have tabs := h.tabs
  rw [← hadopt] at shown numbered tabs
  have hrest := novel_adopt shown
  have hnovel : s.novel (⟨e.id, e.url, false, s.tabs.length⟩ :: ls) =
      ⟨e.id, e.url, false, s.tabs.length⟩ :: s.novel ls := by
    rw [novel_cons, if_pos (Nat.le_refl _)]
  rw [hrest, hadopt] at numbered tabs
  refine ⟨.cons ⟨rfl, ?_⟩ (shown.imp fun _ _ h => h.of_adopt.1), ?_, ?_, fun id => ?_⟩
  · rw [hp]
    exact ⟨Nat.le_refl _, rfl, rfl⟩
  · rw [hnovel, List.map_cons, numbered, length_create]
    rfl
  · rw [hnovel, List.map_cons, tabs]
    exact List.append_assoc ..
  · rw [h.registered id, getLast?_filter_cons, Option.or_assoc]
    congr 1
    show (assign e.id s.tabs.length s.registry).lookup id = _
    rw [lookup_assign]
    dsimp only
    by_cases heq : id = e.id
    · rw [if_pos heq, if_pos heq.symm]
      rfl
    · rw [if_neg heq, if_neg (Ne.symm heq)]
      rfl

/-- What taking up a list of tabs makes of a session, and the listing that it gives. -/
theorem Sound.takesUp_adoptAll (hs : s.Sound) (entries : List TabEntry) :
    let ls := (s.adoptAll entries).2.filterMap (s.adoptAll entries).1.listed?
    s.TakesUp entries (s.adoptAll entries).1 ls ∧
      (s.adoptAll entries).1.journal = s.journal ++ s.creations ls := by
  induction entries generalizing s with
  | nil =>
    exact ⟨⟨.nil, rfl, (List.append_nil _).symm, fun _ => rfl⟩, (List.append_nil _).symm⟩
  | cons e rest ih =>
    obtain ⟨l, hl, hid, htab, hls⟩ := hs.listed_cons e rest
    obtain ⟨hrest, hj⟩ := ih (hs.adopt e)
    dsimp only
    rw [hls, adoptAll_cons]
    have hnovel := novel_adopt hrest.shown
    dsimp only [creations] at hj ⊢
    rw [hnovel] at hj
    rw [hj, novel_cons]
    cases hp : s.present? e.id with
    | some t =>
      rw [adopt_of_present hp] at hl htab hrest ⊢
      refine ⟨hrest.cons_of_present hp hid hl, ?_⟩
      rw [if_neg]
      rw [htab]
      exact Nat.not_le_of_lt (lt_length_of_live (present?_eq_some.mp hp).2)
    | none =>
      rw [adopt_of_absent hp] at hl htab hrest ⊢
      have hnew : l = ⟨e.id, e.url, false, s.tabs.length⟩ := by
        obtain ⟨tab, hk, rfl⟩ := Option.map_eq_some_iff.mp hl
        rw [show (s.create e).2 = s.tabs.length from rfl, tab?_create, if_pos rfl] at hk
        cases hk
        rfl
      refine ⟨hrest.cons_of_absent hp hnew, ?_⟩
      rw [if_pos (show s.tabs.length ≤ l.tab from Nat.le_of_eq htab.symm), hnew]
      exact List.append_assoc ..

/-- Only the tabs and the registry count. -/
theorem TakesUp.of_eq {x x' : State} {entries : List TabEntry} {ls : List Listed}
    (h : x.TakesUp entries x' ls) (tabs : x.tabs = s.tabs) (registry : x.registry = s.registry)
    (tabs' : s'.tabs = x'.tabs) (registry' : s'.registry = x'.registry) : s.TakesUp entries s' ls := by
  obtain ⟨shown, numbered, htabs, registered⟩ := h
  unfold Shows present? listed? isLive registered? tab? at shown
  unfold novel at numbered htabs
  unfold registered? at registered
  rw [tabs, registry] at shown
  rw [tabs] at numbered htabs
  rw [registry] at registered
  refine ⟨shown, numbered, tabs'.trans htabs, fun id => ?_⟩
  unfold registered?
  rw [registry']
  exact registered id

/-! ### The call -/

/-- A discovery goes on without a list: it makes no tab and registers none, and at most sends its request
or ends with an error. -/
structure Barren (c : Call) (s s' : State) : Prop where
  tabs : s'.tabs = s.tabs
  registry : s'.registry = s.registry
  news : ∃ news, s'.journal = s.journal ++ news ∧ ∀ e ∈ news,
    (∃ m, e = .sent (some c.id) m) ∨ ∃ x, e = .finished c.id .tabs (.tabs (.error x))

theorem Barren.of_eq (tabs : s'.tabs = s.tabs) (registry : s'.registry = s.registry)
    (journal : s'.journal = s.journal) : Barren c s s' :=
  ⟨tabs, registry, [], by rw [journal, List.append_nil], fun _ h => absurd h List.not_mem_nil⟩

theorem Barren.trans {s'' : State} (h : Barren c s s') (h' : Barren c s' s'') : Barren c s s'' := by
  obtain ⟨news, hj, hn⟩ := h.news
  obtain ⟨more, hj', hm⟩ := h'.news
  refine ⟨h'.tabs.trans h.tabs, h'.registry.trans h.registry, news ++ more, ?_, fun e he => ?_⟩
  · rw [hj', hj, List.append_assoc]
  · exact (List.mem_append.mp he).elim (hn e) (hm e)

variable (about : c.request = .tabs)
include about

theorem barren_report (s : State) (x : EngineError) : Barren c s (s.report c (.tabs (.error x))) := by
  refine ⟨rfl, rfl, [_], rfl, fun e he => Or.inr ⟨x, ?_⟩⟩
  rw [List.mem_singleton.mp he, about]

/-- A discovery waits with the session's service handler and needs nothing for itself. -/
theorem quit_of_tabs (s : State) (k : Ticket) : s.quit c k =
    { s with
      calls := s.calls.filter (·.id != c.id)
      service := some ((s.service.getD {}).leave Request.tabs.command k) } := by
  unfold quit leave retire
  rw [about]
  rfl

theorem barren_quit (s : State) (k : Ticket) : Barren c s (s.quit c k) := by
  rw [quit_of_tabs about]
  exact .of_eq rfl rfl rfl

theorem barren_retire (s : State) : Barren c s (s.retire c) := by
  unfold State.retire
  rw [about]
  exact .of_eq rfl rfl rfl

theorem serviceEnds_of_tabs (s : State) (r : Except TransportError ServiceResponse) :
    s.serviceEnds c r = match listing r with
      | .error e => s.report c (.tabs (.error e))
      | .ok entries => s.tabsEnd c entries := by
  cases h : listing r <;> simp only [serviceEnds, about, h]

theorem barren_serviceEnds (s : State) (r : Except TransportError ServiceResponse)
    (unlisted : ∀ entries, listing r ≠ .ok entries) : Barren c s (s.serviceEnds c r) := by
  rw [serviceEnds_of_tabs about]
  split
  · exact barren_report about s _
  · next entries h => exact absurd h (unlisted entries)

/-- The end of a wait that brings no list. -/
theorem barren_poll (s : State) (k : Ticket) (d : Nat)
    (unlisted : ∀ response entries, (s.serviceTable c.request).receiver? k = some (.answered response) →
      listing (.ok response) ≠ .ok entries) : Barren c s (s.poll c k d) := by
  rw [poll_of_free (by rw [about]; rfl)]
  cases wait : s.waitEnd? (s.serviceTable c.request) c.request k d with
  | none => exact .of_eq rfl rfl rfl
  | some r =>
    refine (barren_quit about s k).trans (barren_serviceEnds about _ r fun entries => ?_)
    cases r with
    | error e => exact fun h => by cases h
    | ok response => exact unlisted response entries (waitEnd?_ok.mp wait)

/-- Whoever has just asked has not heard a list. -/
theorem barren_ask (hs : s.Sound) (ready : s.Ready c) (m : Message) : Barren c s (s.ask c m) := by
  have hasked : Barren c s (s.asked c m) := by
    refine ⟨?_, congrArg View.registry (view_asked s ready m), _, journal_asked s c m, fun e he => ?_⟩
    · unfold State.asked
      rw [send_eq]
      show (s.enter c).tabs = s.tabs
      unfold enter join
      rw [about]
      rfl
    · unfold posted at he
      split at he
      · exact Or.inl ⟨m, List.mem_singleton.mp he⟩
      · cases he
  cases hr : ((s.enter c).send (some c.id) m).2 with
  | ok u =>
    rw [ask_of_ok hr]
    refine hasked.trans (barren_poll about _ _ _ fun response entries heard => ?_)
    rw [hs.waiting_at_service ready m (by rw [about]; rfl)] at heard
    cases heard
  | error e =>
    have hrefused : Barren c s (s.refused c m) := hasked.trans (barren_quit about _ _)
    rw [ask_of_error hr]
    refine hrefused.trans ?_
    unfold sendFails
    rw [about]
    exact barren_serviceEnds about _ _ fun entries => nofun

theorem resume_of_tabs (s : State) (idle : c.Idle) : s.resume c = s.begin c := by
  have unlined : s.lined c = s := by
    unfold lined
    rw [about]
    exact ite_self s
  have held : (s.lined c).holds c = true := by
    unfold holds
    rw [about]
    rfl
  rw [resume_of_admits ⟨idle, held⟩, unlined]

theorem Sound.barren_begin (hs : s.Sound) (hc : c ∈ s.calls) (idle : c.Idle)
    (connected : s.connection.connected = true) : Barren c s.purge (s.begin c) := by
  have poised : s.Poised c := ⟨hc, idle, fun n hn => by rw [about] at hn; cases hn⟩
  have hsteps : Changes s s.purge.ensureService := .tail (.single .purged) .served
  have hs' := Changes.sound hsteps hs
  have ready := poised.purged.served.ready hs' (by rw [about]; exact isSome_service s.purge)
  have hserved : Barren c s.purge s.purge.ensureService := by
    unfold ensureService
    split <;> exact .of_eq rfl rfl rfl
  unfold begin
  rw [about]
  dsimp only
  rw [if_pos connected]
  exact hserved.trans (barren_ask about hs' ready _)

/-- A wait that is over without a list ends the discovery with an error. -/
theorem journal_poll_of_unlisted {k : Ticket} {d : Nat} (hp : c.point = .awaiting k d)
    (ready : s.runnable c = true)
    (unlisted : ∀ response entries, (s.serviceTable c.request).receiver? k = some (.answered response) →
      listing (.ok response) ≠ .ok entries) :
    ∃ e, (s.poll c k d).journal = s.journal ++ [.finished c.id .tabs (.tabs (.error e))] := by
  have free : c.request.tab? = none := by rw [about]; rfl
  unfold runnable at ready
  simp only [hp, free] at ready
  obtain ⟨r, hr⟩ := Option.isSome_iff_exists.mp ready
  rw [poll_of_free free, hr, Option.map_some, Option.getD_some, serviceEnds_of_tabs about]
  cases hl : listing r with
  | error e =>
    refine ⟨e, ?_⟩
    show (s.quit c k).journal ++ [.finished c.id c.request _] = _
    rw [journal_quit, about]
  | ok entries =>
    cases r with
    | error e => cases hl
    | ok response => exact absurd hl (unlisted response entries (waitEnd?_ok.mp hr))

omit about

/-- In every history, a discovery that has heard a list of tabs ends, when it goes on, with a listing of
it: an item for each listed tab, in order, each with the id of the tab, which is the live registered
instance of the id, as it is, or a new one for which a context is made. The registry has then the last
instance for each listed id. A discovery that goes on without such a list, because the result is not OK,
any of the tabs is malformed, or no response came, ends with an error and makes and registers
nothing. When it begins, it only purges the registry, and does not even do that without a connection. -/
theorem discovery_takes_up_list_or_nothing (config : Config) (restartable : Bool)
    (rules : List (String × Json)) (actions : List Action) (c : Call) :
    let s := (initial config restartable rules).run actions
    let s' := s.act (.resume c.id)
    c ∈ s.calls → c.request = .tabs →
      (∀ response entries, s.Informed c response → response.Lists entries →
        ∃ ls, s.TakesUp entries s' ls ∧
          s'.journal = s.journal ++ s.creations ls ++ [.finished c.id .tabs (.tabs (.ok ls))]) ∧
      (¬ c.Idle → (∀ response entries, s.Informed c response → ¬ response.Lists entries) →
        s.Barren c s' ∧ (s.runnable c = true →
          ∃ e, s'.journal = s.journal ++ [.finished c.id .tabs (.tabs (.error e))])) ∧
      (c.Idle → s.connection.connected = true → s.purge.Barren c s') ∧
      (c.Idle → s.connection.connected = false → s.Barren c s' ∧ s'.journal =
        s.journal ++ [.finished c.id .tabs (.tabs (.error (.illegalState .notConnected)))]) := by
  intro s s' hc about
  have hs : s.Sound := (sound_initial config restartable rules).run actions
  have hact : s' = s.resume c := by
    show s.act (.resume c.id) = _
    simp only [State.act, hs.call?_eq hc]
  refine ⟨fun response entries informed lists => ?_, fun waits unlisted => ?_, fun idle connected => ?_,
    fun idle disconnected => ?_⟩
  · obtain ⟨k, d, hp, hend⟩ := hs.act_of_informed hc (by rw [about]; rfl) informed
    rw [serviceEnds_of_tabs about, listing_eq_ok_iff.mpr lists] at hend
    have hquit : (s.quit c k).Sound := hs.quit (waits_of_point hc hp)
    obtain ⟨taken, hj⟩ := hquit.takesUp_adoptAll entries
    -- leaving its place, the call has touched neither the tabs nor the registry
    have htabs := (barren_quit about s k).tabs
    have hregistry := (barren_quit about s k).registry
    have hj' : (s.quit c k).journal = s.journal := journal_quit s c k
    rw [show s' = _ from hend]
    refine ⟨_, taken.of_eq htabs hregistry rfl rfl, ?_⟩
    show ((s.quit c k).adoptAll entries).1.journal ++ [.finished c.id c.request _] = _
    rw [hj, hj', about]
    unfold creations novel
    rw [htabs]
  · obtain ⟨k, d, hp⟩ := point_of_waits waits
    have hpoll : s' = s.poll c k d := by
      rw [hact]
      unfold resume
      rw [hp]
    have silent : ∀ response entries,
        (s.serviceTable c.request).receiver? k = some (.answered response) →
          listing (.ok response) ≠ .ok entries := fun response entries heard listed =>
      unlisted response entries ⟨k, d, hp, heard⟩ (listing_eq_ok_iff.mp listed)
    rw [hpoll]
    exact ⟨barren_poll about s k d silent, fun ready => journal_poll_of_unlisted about hp ready silent⟩
  · rw [hact, resume_of_tabs about s idle]
    exact hs.barren_begin about hc idle connected
  · have hfinish : s' = s.finish c (.tabs (.error (.illegalState .notConnected))) := by
      rw [hact, resume_of_tabs about s idle]
      unfold begin
      rw [about]
      dsimp only
      rw [if_neg (by rw [disconnected]; exact Bool.false_ne_true)]
    rw [hfinish]
    refine ⟨(barren_retire about s).trans (barren_report about _ _), ?_⟩
    show (s.retire c).journal ++ [.finished c.id c.request _] = _
    rw [journal_retire, about]

/-- While the attach of the first tab is under way, a list comes in that names this tab, and twice a tab
that is not live. -/
def surveying : List Action :=
  [.answerWith "list_tabs" (.ofFields
      [("command", .str "list_tabs"), ("result", .ofNat 0),
        ("data", .arr [.arr [.ofNat 8, .str "x"], .arr [.ofNat 7, .str "c"], .arr [.ofNat 8, .str "y"]])]),
    .start 3 .tabs, .resume 3, .receive]

def surveyingCall : Call := ⟨3, .tabs, .awaiting 3 3000⟩

/-- The listing shows the first tab with its own address, and two new instances, of which the last is
registered. -/
theorem discovery_of_live_and_repeated_tabs :
    let s := (initial {} false obliging).run (accepting ++ surveying)
    let s' := s.act (.resume 3)
    let entries : List TabEntry := [⟨8, "x"⟩, ⟨7, "c"⟩, ⟨8, "y"⟩]
    surveyingCall ∈ s.calls ∧ (∃ ls, s.TakesUp entries s' ls ∧
      s'.journal = s.journal ++ s.creations ls ++ [.finished 3 .tabs (.tabs (.ok ls))]) ∧
      s'.registered? 7 = some 0 ∧ s'.registered? 8 = some 3 := by
  intro s s' entries
  have waits : surveyingCall ∈ s.calls := by decide +kernel
  obtain ⟨ends, _⟩ := discovery_takes_up_list_or_nothing {} false obliging (accepting ++ surveying)
    surveyingCall waits rfl
  have lists := ends _ entries ⟨3, 3000, rfl, rfl⟩ ⟨rfl, _, rfl, .cons rfl (.cons rfl (.cons rfl .nil))⟩
  exact ⟨waits, lists, by decide +kernel, by decide +kernel⟩

end State
end RemoteDebug.Engine
