import RemoteDebug.Cli.Client
import RemoteDebug.Scenario.Peer

/-! The command-line client against a scripted server, and the printing of its tabs alone.

The server answers the greeting with given octets, and each command with what its
script holds under the command's name, in one write. Time moves on when nothing
else happens. -/
namespace RemoteDebug.Scenario
open Cli Protocol Wire

/-- A part of what the server writes in answer to a command. -/
inductive ServerPart where
  /-- A frame; what is absent is as in the command. -/
  | frame (content : Json) (tool destination : Option String)
  | raw (octets : Octets)
  /-- Hang up after the write. -/
  | close
  deriving Repr, Inhabited

structure ServerScript where
  greetingReply : Octets := Text.Utf8.encode greeting
  answers : List (String × List ServerPart) := []
  deriving Repr, Inhabited

structure ServerRun where
  client : Client
  script : ServerScript
  /-- Octets that the server has not read yet. -/
  input : Octets := []
  received : List Message := []

namespace ServerRun

def partOctets (m : Message) : ServerPart → Octets
  | .frame content tool destination =>
    encode (.ofHeaders (tool.getD m.tool) (destination <|> m.destination) content)
  | .raw octets => octets
  | .close => []

def isClose : ServerPart → Bool
  | .close => true
  | _ => false

/-- The server answers a command. -/
def answer (r : ServerRun) (m : Message) : ServerRun :=
  let parts := (m.command?.bind fun name => r.script.answers.lookup name).getD []
  let octets := parts.flatMap (partOctets m)
  let client := if octets.isEmpty then r.client else r.client.happens (.arrive octets)
  let client := if parts.any isClose then client.happens .finish else client
  { r with client, received := r.received ++ [m] }

/-- The server reads what the client has sent. -/
def serve (r : ServerRun) : ServerRun :=
  let (readings, rest) := available false (r.input ++ r.client.outgoing)
  let r := { r with input := rest, client := { r.client with outgoing := [] } }
  readings.foldl (fun r reading => match reading with
    | .message m => r.answer m
    | _ => r) r

/-- Lets server and client go on; the number bounds the exchanges. -/
def go : Nat → ServerRun → ServerRun
  | 0, r => r
  | n + 1, r =>
    if r.client.isFinished then r.serve
    else if !r.client.outgoing.isEmpty then go n r.serve
    else
      match r.client.due? with
      | some due => go n { r with client := r.client.tick (due - r.client.session.clock) }
      | none => r

/-- The stream is open: greeting and answer, or a wait in vain. -/
def greet (r : ServerRun) : ServerRun :=
  let client := { r.client.happens .opened with outgoing := [] }.happens (.arrive r.script.greetingReply)
  let waiting := client.socket.attempts.any fun a => a.stage != .queued
  { r with client := if waiting then client.happens .timedOut else client }

def run (invocation : Invocation) (address : String) (network : Network) (script : ServerScript) :
    ServerRun :=
  let client := Client.new invocation
  let client := { client with socket := { client.socket with address } }
  let r : ServerRun := { client, script }
  match network with
  | .failing cause => { r with client := client.happens (.unopened cause) }
  | .reachable => go 64 r.greet

def lines (ls : List String) : Json := .str (String.join (ls.map (· ++ "\n")))

def report (r : ServerRun) : Json :=
  let result := match r.client.stage with
    | .finished (.ok ()) => Report.done
    | .finished (.error causes) => .ofFields [("error", .str (Client.failureLine causes))]
    | _ => .null
  .ofFields
    [("result", result), ("stdout", lines r.client.printed), ("log", .arr (r.client.logged.map .str)),
      ("server_got", .arr (r.received.map Report.message))]

end ServerRun

/-! ### Printing alone -/

/-- A call of what prints for one tab. -/
inductive PrinterCall where
  | event (e : Engine.TabEvent)
  | breakpoint (kind : Engine.BreakpointKind) (callback : Bool)
  | scripts (callback : Bool)
  /-- Does a wait for the end of the attachment end at once? -/
  | wait
  deriving Repr

/-- The answer of a call, the lines printed and logged, and whether an end of the attachment was
told that no wait has noticed yet. -/
def printerCall (tab : TabId) (told : Bool) : PrinterCall → Json × List String × List String × Bool
  | .event e =>
    let ends := match e with
      | .disconnected _ => true
      | _ => false
    (.null, (eventLine? tab e).toList, [], told || ends)
  | .breakpoint kind callback =>
    (if callback then .ofFields [("Err", .str breakpointRefusal)] else .null, [],
      [breakpointLine tab kind], told)
  | .scripts callback => (if callback then .ofFields [("Ok", .arr [])] else .null, [], [], told)
  | .wait => (.bool told, [], [], false)

def printerCalls (tab : TabId) (told : Bool) : List PrinterCall → List Json
  | [] => []
  | call :: rest =>
    let (answer, printed, logged, told) := printerCall tab told call
    .ofFields
      [("r", answer), ("stdout", ServerRun.lines printed), ("log", .arr (logged.map .str))]
      :: printerCalls tab told rest

end RemoteDebug.Scenario
