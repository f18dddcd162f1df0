import RemoteDebug.Proofs.Hearing

/-! A session and the server that it asks.

The server keeps one bit for each id and takes the demands of the session in the order in which they
went out, as late as it likes; its replies arrive whenever and in whatever order they do. What it will
have answered in the end does not depend on when it does so. -/
namespace RemoteDebug.Engine
open Protocol Wire

namespace Handshake

/-- What the bit of a tab is to be. -/
def wants : Handshake → Bool
  | .attach => true
  | .detach => false

def ofName? (name : String) : Option Handshake :=
  if name = attach.name then some .attach else if name = detach.name then some .detach else none

theorem ofName?_name (h : Handshake) : ofName? h.name = some h := by cases h <;> rfl

end Handshake

/-- An exchange that is asked for. -/
structure Demand where
  id : TabId
  handshake : Handshake
  deriving DecidableEq

/-- The reply to it. -/
structure Verdict where
  demand : Demand
  granted : Bool
  deriving DecidableEq

/-- The exchange that a message asks for. -/
def demandIn? (m : Message) : Option Demand := do
  let id ← m.tab?
  let handshake ← m.command?.bind Handshake.ofName?
  return ⟨id, handshake⟩

/-- The reply to an exchange that a message carries. -/
def verdictIn? (m : Message) : Option Verdict := do
  let id ← m.tab?
  let reply ← (DebuggerReply.ofJson m.content).toOption
  let handshake ← Handshake.ofName? reply.command
  return ⟨⟨id, handshake⟩, reply.code.isOk⟩

/-- The exchanges that the calls have asked for. -/
def demands (es : List Entry) : List Demand :=
  es.filterMap fun
    | .sent (some _) m => demandIn? m
    | _ => none

structure Server where
  /-- The bit of each tab. -/
  attached : TabId → Bool := fun _ => false
  /-- What it has still to take up. -/
  asked : List Demand := []
  /-- The replies that are on their way. -/
  owed : List Verdict := []

namespace Server

variable {v v' : Server} {w : Verdict}

/-- The server does as it is asked and says yes if that changes the bit of the tab; else it says that the
tab is in the wrong state. -/
def answer (v : Server) (d : Demand) : Server :=
  { v with
    attached := Function.update v.attached d.id d.handshake.wants
    owed := v.owed ++ [⟨d, v.attached d.id != d.handshake.wants⟩] }

def answers (v : Server) (ds : List Demand) : Server := ds.foldl answer v

/-- The server takes up its oldest demand. -/
def serve? (v : Server) : Option Server :=
  match v.asked with
  | [] => none
  | d :: rest => some ({ v with asked := rest }.answer d)

/-- A message arrives at the session: a reply is one that is owed. -/
def hand? (v : Server) (m : Message) : Option Server :=
  match verdictIn? m with
  | none => some v
  | some w => if w ∈ v.owed then some { v with owed := v.owed.erase w } else none

/-- The server once it has taken up all that it is asked. -/
def settled (v : Server) : Server := { v with asked := [] }.answers v.asked

theorem settled_of_asked_nil (h : v.asked = []) : v.settled = v := by
  unfold settled
  rw [h]
  cases v
  cases h
  rfl

theorem settled_serve (h : v.serve? = some v') : v'.settled = v.settled := by
  unfold serve? at h
  split at h
  · cases h
  · next d rest hasked =>
    obtain rfl := Option.some.inj h
    unfold settled
    rw [hasked]
    rfl

theorem settled_ask (v : Server) (ds : List Demand) :
    { v with asked := v.asked ++ ds }.settled = v.settled.answers ds :=
  List.foldl_append

theorem mem_owed_answer {d : Demand} : w ∈ (v.answer d).owed ↔
    w ∈ v.owed ∨ w = ⟨d, v.attached d.id != d.handshake.wants⟩ := by
  show w ∈ v.owed ++ [_] ↔ _
  rw [List.mem_append, List.mem_singleton]

theorem count_owed_answer {d : Demand} (h : w ≠ ⟨d, v.attached d.id != d.handshake.wants⟩) :
    (v.answer d).owed.count w = v.owed.count w := by
  show (v.owed ++ [_]).count w = _
  rw [List.count_append, List.count_eq_zero_of_not_mem fun hm => h (List.mem_singleton.mp hm),
    Nat.add_zero]

theorem mem_owed_answers (hm : w ∈ v.owed) (ds : List Demand) : w ∈ (v.answers ds).owed := by
  induction ds generalizing v with
  | nil => exact hm
  | cons d rest ih => exact ih (v := v.answer d) (mem_owed_answer.mpr (Or.inl hm))

theorem owed_answers {ds : List Demand} (hm : w ∈ (v.answers ds).owed) : w ∈ v.owed ∨ w.demand ∈ ds := by
  induction ds generalizing v with
  | nil => exact Or.inl hm
  | cons d rest ih =>
    rcases ih (v := v.answer d) hm with hm | hm
    · rcases mem_owed_answer.mp hm with hm | rfl
      · exact Or.inl hm
      · exact Or.inr (List.mem_cons_self ..)
    · exact Or.inr (List.mem_cons_of_mem _ hm)

theorem answers_erase (hm : w ∈ v.owed) (ds : List Demand) :
    { v with owed := v.owed.erase w }.answers ds =
      { v.answers ds with owed := (v.answers ds).owed.erase w } := by
  induction ds generalizing v with
  | nil => rfl
  | cons d rest ih =>
    have hd : { v with owed := v.owed.erase w }.answer d =
        { v.answer d with owed := (v.answer d).owed.erase w } := by
      unfold answer
      rw [List.erase_append_left _ hm]
    have hmd : w ∈ (v.answer d).owed := mem_owed_answer.mpr (Or.inl hm)
    show ({ v with owed := v.owed.erase w }.answer d).answers rest = _
    rw [hd]
    exact ih hmd

/-- What arrives is owed in the end too. -/
theorem settled_hand {m : Message} (h : v.hand? m = some v') :
    (verdictIn? m = none ∧ v' = v) ∨ ∃ w, verdictIn? m = some w ∧ w ∈ v.settled.owed ∧
      v'.settled = { v.settled with owed := v.settled.owed.erase w } := by
  unfold hand? at h
  split at h
  · next hn => exact Or.inl ⟨hn, (Option.some.inj h).symm⟩
  · next w hw =>
    split at h
    · next hm =>
      obtain rfl := Option.some.inj h
      exact Or.inr ⟨w, hw, mem_owed_answers (v := { v with asked := [] }) hm v.asked,
        answers_erase (v := { v with asked := [] }) hm v.asked⟩
    · cases h

end Server

/-! ### What is written in messages -/

theorem tab?_forTab (tool : Tool) (id : TabId) (content : Json) :
    (Message.forTab tool id content).tab? = some id := by
  have hne : Message.tabText id ≠ "" := by
    intro h
    have hl := congrArg String.toList h
    unfold Message.tabText at hl
    rw [String.toList_ofList] at hl
    have hn := Text.isNumeral_digits id.toNat
    rw [hl] at hn
    cases hn
  have hd : (Message.forTab tool id content).destination = some (Message.tabText id) := by
    unfold Message.forTab Message.ofHeaders
    rw [dif_neg fun h => hne (Option.some.inj h)]
  unfold Message.tab?
  rw [hd, Option.getD_some]
  unfold Message.tabText Text.parseUInt32
  rw [String.toList_ofList, Text.parseBelow_digits id.toNat_lt]
  exact congrArg some UInt32.ofNat_toNat

theorem content_forTab (tool : Tool) (id : TabId) (content : Json) :
    (Message.forTab tool id content).content = content := by
  unfold Message.forTab Message.ofHeaders
  split <;> rfl

theorem Request.command_of_handshake {r : Request} {h : Handshake} {t : Instance}
    (hr : r.handshake? = some (h, t)) : r.command = h.name := by
  unfold Request.handshake? at hr
  split at hr <;> cases hr <;> rfl

/-- A call asks for the exchange that it is about. -/
theorem demandIn?_petition (s : State) {r : Request} (tab : s.hasTab r) :
    demandIn? (s.petition r) = r.handshake?.bind fun e => (s.view.ident e.2).map (⟨·, e.1⟩) := by
  have hask : ∀ (command : DebuggerCommand) (h : Handshake) (t : Instance), (s.tab? t).isSome = true →
      (command.content.field? "command").bind Json.str? = some h.name →
        demandIn? (command.toMessage (((s.tab? t).map (·.id)).getD 0)) =
          (s.view.ident t).map (⟨·, h⟩) := by
    intro command h t ht hc
    obtain ⟨known, hk⟩ := Option.isSome_iff_exists.mp ht
    have hident : s.view.ident t = some known.id := by
      show (s.tab? t).map _ = _
      rw [hk]
      rfl
    have hcommand : ∀ id, (command.toMessage id).command? = some h.name := fun id => by
      unfold Message.command? DebuggerCommand.toMessage
      rw [content_forTab]
      exact hc
    unfold demandIn?
    rw [hcommand, hident, hk]
    unfold DebuggerCommand.toMessage
    rw [tab?_forTab, Option.bind_some, Handshake.ofName?_name]
    rfl
  cases r with
  | attach t l => exact hask .attach .attach t (tab t rfl) rfl
  | detach t => exact hask .detach .detach t (tab t rfl) rfl
  | service command timeout => cases command <;> rfl
  | _ => rfl

theorem verdictIn?_eq {m : Message} {id : TabId} {reply : DebuggerReply} {h : Handshake}
    (tab : m.tab? = some id) (content : DebuggerReply.ofJson m.content = .ok reply)
    (command : reply.command = h.name) : verdictIn? m = some ⟨⟨id, h⟩, reply.code.isOk⟩ := by
  unfold verdictIn?
  rw [tab, content]
  show (Handshake.ofName? reply.command).bind _ = _
  rw [command, Handshake.ofName?_name]
  rfl

theorem demands_of_asks {es : List Entry} (h : asks es = []) : demands es = [] := by
  refine List.filterMap_eq_nil_iff.mpr fun e he => ?_
  have hn := List.filterMap_eq_nil_iff.mp h e he
  split
  · cases hn
  · rfl

theorem demands_sent (id : CallId) (m : Message) {rest : List Entry} (h : asks rest = []) :
    demands (.sent (some id) m :: rest) = (demandIn? m).toList := by
  have hrest := demands_of_asks h
  unfold demands at hrest ⊢
  rw [List.filterMap_cons, hrest]
  dsimp only
  cases demandIn? m <;> rfl

/-! ### Both together -/

/-- The exchange that a call waits for. -/
def Call.exchange? (c : Call) : Option (Handshake × Instance) :=
  match c.point with
  | .awaiting .. => c.request.handshake?
  | _ => none

/-- The tab of a detach that came to its end because no reply came in time. -/
def Entry.lapsed? : Entry → Option Instance
  | .finished _ (.detach t) (.handshake (.error (.transport (.timeout (.reply ..))))) => some t
  | _ => none

/-- No reply to an exchange gets past the connection, and nobody but a call asks for an exchange. -/
def Action.isFair : Action → Bool
  | .handle _ m => (State.tabReply? m).isNone
  | .command _ .attach | .command _ .detach => false
  | _ => true

namespace State

/-- What an action adds to the journal. -/
def news (s : State) (a : Action) : List Entry := (s.act a).journal.drop s.journal.length

/-- The tabs whose detach an action gives up after it was asked for. -/
def forsakes (s : State) (a : Action) : List Instance :=
  (s.news a).filterMap Entry.lapsed? ++
    match a with
    | .cancel id =>
      match (s.call? id).bind Call.exchange? with
      | some (.detach, t) => [t]
      | _ => []
    | _ => []

/-- A tab of the id is attached, or an exchange with one is waited for. -/
def engages (s : State) (id : TabId) : Bool :=
  (s.tabs.any fun tab => tab.id == id && tab.attached) ||
    s.calls.any fun c => (c.exchange?.bind fun e => s.view.ident e.2) == some id

end State

/-- A session and its server. -/
structure Joint where
  client : State
  server : Server := {}
  /-- The ids of which a detach was given up, until all is over that was then under way: no tab of the
  id is attached, no exchange with one is waited for, and no reply for the id is to come. -/
  forsaken : List TabId := []

/-- Whose turn it is. -/
inductive Turn where
  | client (a : Action)
  | server

namespace Joint

/-- Before anything has happened. -/
def start (config : Config) (restartable : Bool) (rules : List (String × Json)) : Joint :=
  { client := .initial config restartable rules }

/-- Something of an id is under way. -/
def stirs (j : Joint) (id : TabId) : Bool :=
  (j.server.asked.any (·.id == id) || j.server.owed.any (·.demand.id == id)) || j.client.engages id

def turn? (j : Joint) : Turn → Option Joint
  | .server => j.server.serve?.map fun server => { j with server }
  | .client a =>
    if a.isFair then
      ((j.client.incoming? a).elim (some j.server) j.server.hand?).map fun server =>
        let client := j.client.act a
        let server := { server with asked := server.asked ++ demands (j.client.news a) }
        let forsaken := j.forsaken ++ (j.client.forsakes a).filterMap j.client.view.ident
        { client, server, forsaken := forsaken.filter (stirs { client, server }) }
    else none

def run? (j : Joint) (turns : List Turn) : Option Joint := turns.foldlM turn? j

end Joint

end RemoteDebug.Engine
