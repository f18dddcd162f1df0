import RemoteDebug.Report.History

/-! A scripted session: steps that its owner, its tabs or the other side take, and what each
step answers.

After every step the session settles. Tabs are named by instance, and a step knows
those that stood in the registry after an earlier step. An instance that was replaced
in the step that made it can only be reached through its listing. -/
namespace RemoteDebug.Scenario
open Engine Protocol Wire

/-- How an attach call is made. -/
inductive AttachStyle where
  /-- The outcome is yes or no. -/
  | brief
  /-- Through what a listing of tabs returned; the outcome is yes or no. -/
  | connector
  /-- The outcome tells the failure. -/
  | explained
  deriving DecidableEq, Repr, Inhabited

/-- Where a failure is queued. -/
inductive FaultSite where
  | start
  | send
  deriving DecidableEq, Repr, Inhabited

inductive Step where
  | connect
  | ping
  | tabs
  | disconnect
  | terminate (id : TabId)
  | describe
  | settings
  | attach (tab : Instance) (listener : String) (style : AttachStyle)
  | detach (tab : Instance) (explained : Bool)
  | tabTerminated (tab : Instance)
  | forceDetach (tab : Instance)
  | handle (tab : Instance) (m : Message)
  | command (tab : Instance) (c : DebuggerCommand)
  | breakpoint (tab : Instance) (spec : BreakpointSpec) (callback : Bool)
  | scripts (tab : Instance) (callback : Bool)
  | describeTab (tab : Instance)
  | deliver (m : Message)
  | endOfStream
  | close
  | rule (key : String) (content : Json)
  | fault (site : FaultSite) (e : TransportError)
  | advance (ms : Nat)
  | cancel (call : CallId)
  | dropBrowser
  | separate (command : ServiceCommand) (timeout : Nat)
  | separateMessage (m : Message)
  | separateDetached
  deriving Repr, Inhabited

namespace Step

/-- The step is one of the browser. -/
def needsBrowser : Step → Bool
  | .connect | .ping | .tabs | .disconnect | .terminate _ | .describe | .settings => true
  | _ => false

/-- The tab that a step is about. -/
def tab? : Step → Option Instance
  | .attach t _ _ | .detach t _ | .tabTerminated t | .forceDetach t | .handle t _ | .command t _
  | .breakpoint t _ _ | .scripts t _ | .describeTab t => some t
  | _ => none

/-- The outcome of the call that a step starts is told in a word. -/
def isBrief : Step → Bool
  | .attach _ _ style => style != .explained
  | .detach _ explained => !explained
  | _ => false

/-- The call that a step starts. A listener named `silent` is silent. -/
def request? : Step → Option Request
  | .connect => some .connect
  | .ping => some .ping
  | .tabs => some .tabs
  | .attach t listener _ => some (.attach t { name := listener, silent := listener == "silent" })
  | .detach t _ => some (.detach t)
  | .separate asked timeout => some (.service asked timeout)
  | _ => none

/-- What a step other than a call does to the session. -/
def actions : Step → List Action
  | .disconnect | .close => [.close]
  | .terminate id => [.terminate id]
  | .tabTerminated t => [.tabTerminated t]
  | .forceDetach t => [.detached t]
  | .handle t m => [.handle t m]
  | .command t c => [.command t c]
  | .breakpoint t spec _ => [.breakpoint t spec]
  | .scripts t _ => [.scripts t]
  | .deliver m => [.deliver m]
  | .rule key content => [.answerWith key content]
  | .fault .start e => [.failStart e]
  | .fault .send e => [.failSend e]
  | .advance ms => [.advance ms]
  | .cancel call => [.cancel call]
  | .dropBrowser => [.dropBrowser]
  | .separateMessage m => [.separateMessage m]
  | .separateDetached => [.separateDetached]
  | _ => []

/-- Neither does the owner drop the browser, nor does a message reach a tab past the connection. -/
def isOrdinary : Step → Bool
  | .handle .. | .dropBrowser => false
  | _ => true

end Step

/-! ### Answers -/

def ruleName : Compatibility → String
  | .sameMajor => "SameMajorServerMinorAtLeast"
  | .exact => "Exact"

def settings (s : State) : Json :=
  .ofFields
    [("connected", .bool s.connection.connected), ("rule", .str (ruleName s.config.rule)),
      ("timeout", .str (Text.spanText s.config.timeout)), ("version", s.config.version.toJson)]

def description (s : State) : Json :=
  let line := Report.sessionLine s
  .ofFields [("browser", .str s!"Browser \x7b session: {line} \x7d"), ("session", .str line)]

def tabDescription (s : State) (t : Instance) : Json :=
  match s.tab? t with
  | none => .null
  | some tab =>
    .ofFields
      [("tab", .str (Report.tabLine tab)), ("url", .str tab.url),
        ("manager_attached", .bool tab.attached)]

/-- What a callback receives. -/
def called (r : Except String Json) : Json :=
  match r with
  | .ok value => .ofFields [("Ok", value)]
  | .error text => .ofFields [("Err", .str text)]

/-- The context of a scripted tab numbers its breakpoints; the target `fail` has no place. -/
def breakpointResult (spec : BreakpointSpec) (count : Nat) : Except String Json :=
  if spec.target == "fail" then .error "no target" else .ok (.ofNat count)

def scriptsResult : Except String Json := .ok (.arr [.ofFields [("name", .str "app.js")]])

def answer (callback : Bool) (r : Except String Json) : Json :=
  if callback then called r else .str "no callback"

/-- What a step that starts no call answers, from the state before it. -/
def reply (s : State) : Step → Json
  | .describe => description s
  | .settings => settings s
  | .describeTab t => tabDescription s t
  | .command t c => Report.outcome Report.engineFailure (fun _ => Report.done) (s.command t c).2
  | .breakpoint t spec callback =>
    let count := ((s.tab? t).map (·.breakpoints)).getD 0
    answer callback (breakpointResult spec (count + 1))
  | .scripts _ callback => answer callback scriptsResult
  | .deliver _ => .str (if s.connection.listeners = 0 then "no listener" else "delivered")
  | .cancel call => .ofNat (if (s.call? call).isSome then 1 else 0)
  | _ => Report.done

/-! ### Runs -/

structure Run where
  state : State
  /-- How many steps were taken; a call has the number of its step. -/
  taken : Nat := 0
  /-- The tab instances that steps may name, in ascending order. -/
  known : List Instance := []
  /-- The calls whose outcome is told in a word. -/
  brief : List CallId := []

namespace Run

/-- A run before its first step. -/
def start (config : Config) (restartable : Bool) (rules : List (String × Json)) : Run :=
  { state := .initial config restartable rules }

/-- Why a step cannot be taken. Every instance was returned by the listing that made it, and so
has a connector. -/
def refusal? (r : Run) (step : Step) : Option String :=
  if step.needsBrowser && !r.state.browser then some "no browser"
  else
    match step with
    | .attach t _ .connector =>
      if t < r.state.tabs.length then none else some "no connector"
    | _ => if step.tab?.all (r.known.contains ·) then none else some "no tab"

/-- The state after a step, before it settles, and the answer. -/
def begin (r : Run) (step : Step) : State × Json :=
  match r.refusal? step with
  | some text => (r.state, .str text)
  | none =>
    match step.request? with
    | some request => (r.state.act (.start r.taken request), .str "started")
    | none => (r.state.run step.actions, reply r.state step)

/-- The instances that steps may name after a state: the owner of a browser sees its registry. -/
def learn (known : List Instance) (s : State) : List Instance :=
  (List.range s.tabs.length).filter fun t =>
    known.contains t || (s.browser && s.registry.any (·.2 == t))

/-- Takes a step and reports it. -/
def take (r : Run) (step : Step) : Run × Json :=
  let (s, answer) := r.begin step
  let s := s.settle
  let r : Run :=
    { state := { s with journal := [] }
      taken := r.taken + 1
      known := learn r.known s
      brief := if step.isBrief then r.taken :: r.brief else r.brief }
  let report := Json.ofFields
    (("r", answer) :: ("state", Report.state s r.known) :: Report.history (· ∈ r.brief) s.journal)
  (r, report)

/-- The run after some steps. -/
def after (r : Run) (steps : List Step) : Run := steps.foldl (fun r step => (r.take step).1) r

def takeAll (r : Run) : List Step → List Json
  | [] => []
  | step :: rest =>
    let (r, report) := r.take step
    report :: takeAll r rest

end Run

end RemoteDebug.Scenario
