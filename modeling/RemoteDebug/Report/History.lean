import RemoteDebug.Engine.Action
import RemoteDebug.Report.Failure

/-! What happened to a session, and how it stands, as JSON. -/
namespace RemoteDebug.Report
open Engine Protocol

def listed (l : Listed) : Json :=
  .arr [.int (.ofUInt32 l.id), .str l.url, .bool l.attached, .ofNat l.tab]

/-- How a call came out. -/
def result : Result → Json
  | .done r => outcome engineFailure (fun _ => done) r
  | .tabs r => outcome engineFailure (fun tabs => .arr (tabs.map listed)) r
  | .handshake r => outcome attachFailure (fun _ => done) r
  | .version r => outcome transportFailure (fun v => .ofFields [("version", version v)]) r
  | .entries r => outcome engineFailure tabEntries r

/-- How a call came out, in a word. -/
def accepted : Result → Json
  | .handshake r => .bool r.isOk
  | r => result r

/-- An event that somebody notices: a silent listener does nothing with what it is told. -/
def isHeard : TabEvent → Bool
  | .navigated l _ | .closed l | .disconnected l => !l.silent
  | _ => true

def event : TabEvent → Json
  | .created id url => .arr [.str "factory", .int (.ofUInt32 id), .str url]
  | .contextDetached => context "detached" []
  | .contextReply payload => context "reply" [payload]
  | .breakpoint spec => context "breakpoint" [spec.toJson]
  | .scripts => context "scripts" []
  | .navigated l url => heard l "navigated" [.str url]
  | .closed l => heard l "closed" []
  | .disconnected l => heard l "disconnected" []
where
  context (what : String) (more : List Json) : Json := .arr (.str "context" :: .str what :: more)
  heard (l : Listener) (what : String) (more : List Json) : Json :=
    .arr (.str "listener" :: .str l.name :: .str what :: more)

/-- The entries of a history that a function picks, each with a number, in the order of the
numbers; entries of one number stay in their order. -/
def numbered (pick : Entry → Option (Nat × Json)) (entries : List Entry) : List Json :=
  ((entries.filterMap pick).mergeSort fun a b => a.1 ≤ b.1).map fun e => .arr [.ofNat e.1, e.2]

/-- The parts of a history that are not empty. Calls for which `brief` holds are told in a word. -/
def history (brief : CallId → Bool) (entries : List Entry) : List (String × Json) :=
  let finished := numbered (fun
    | .finished call _ r => some (call, if brief call then accepted r else result r)
    | _ => none) entries
  let sent := entries.filterMap fun
    | .sent _ m => some (message m)
    | _ => none
  let events := numbered (fun
    | .event tab what => if isHeard what then some (tab, event what) else none
    | _ => none) entries
  let log := entries.filterMap fun
    | .notice n => some (Json.str n.line)
    | _ => none
  [("done", finished), ("sent", sent), ("events", events), ("log", log)].filterMap fun (name, items) =>
    if items.isEmpty then none else some (name, .arr items)

/-- The session as its owner sees it. -/
def session (s : State) : Json :=
  let registry := (s.registry.mergeSort fun a b => a.1 ≤ b.1).map fun (id, t) =>
    Json.arr [.int (.ofUInt32 id), .ofNat t]
  .ofFields
    [("connected", .bool s.connection.connected), ("tab_count", .ofNat s.registry.length),
      ("has_attached", .bool s.hasAttached), ("registry", .arr registry)]

/-- Some of the tab instances. -/
def tabs (s : State) (known : List Instance) : List Json :=
  known.filterMap fun t => (s.tab? t).map fun tab =>
    .arr [.ofNat t, .int (.ofUInt32 tab.id), .bool tab.attached,
      .ofOption (fun l => .str l.name) tab.listener]

def connection (c : Connection) : Json :=
  .arr [.bool c.connected, .ofNat c.starts, .ofNat c.closes, .ofNat c.listeners]

/-- How everything stands; the session is null once its owner has dropped the browser. -/
def state (s : State) (known : List Instance) : Json :=
  .ofFields
    [("conn", connection s.connection), ("tabs", .arr (tabs s known)),
      ("session", if s.browser then session s else .null)]

/-- The session in one line. -/
def sessionLine (s : State) : String :=
  s!"Session \x7b connected: {s.connection.connected}, tabs: {s.registry.length} \x7d"

/-- A tab in one line. -/
def tabLine (tab : Tab) : String :=
  s!"BrowserTab \x7b id: {Message.tabText tab.id}, url: {Text.quote tab.url}, attached: {tab.attached} \x7d"

end RemoteDebug.Report
