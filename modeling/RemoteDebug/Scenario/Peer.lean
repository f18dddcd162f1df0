import RemoteDebug.Report.Failure
import RemoteDebug.Socket.State

/-! A connection over a stream against a scripted server: steps of both sides, and what each
step answers.

Each start lets the server accept one stream, unless the client is connected. The
server reads the greeting and then does what its next reply says. After every step
writer and reader run until they have to wait. -/
namespace RemoteDebug.Scenario
open Protocol Wire

/-- What a server does with a greeting. -/
inductive GreetingReply where
  | echo
  /-- It sends these octets, perhaps only after the client has closed, and perhaps ends the stream
  after them. -/
  | octets (octets : Octets) (hangUp : Bool) (afterClose : Bool)
  | hangUp
  | silent
  deriving DecidableEq, Repr, Inhabited

/-- What becomes of a try to open a stream. -/
inductive Network where
  | reachable
  | failing (cause : StreamFailure)
  deriving DecidableEq, Repr, Inhabited

inductive PeerStep where
  | listen (name : String)
  /-- One or two starts at a time, and perhaps a close while the reply is awaited. -/
  | start (twice closeMidway : Bool)
  | send (messages : List Message)
  | close
  | drop
  | serverSend (octets : Octets)
  | serverClose
  deriving Repr, Inhabited

/-- The step is one of the client. -/
def PeerStep.ofClient : PeerStep → Bool
  | .serverSend _ | .serverClose => false
  | _ => true

/-- The server's end of a stream. -/
inductive ServerEnd where
  | none
  | opened
  /-- The server closed it. -/
  | closed
  deriving DecidableEq, Repr, Inhabited

structure PeerRun where
  socket : Socket.State
  network : Network
  replies : List GreetingReply
  server : ServerEnd := .none
  /-- The server has seen the client end its stream. -/
  clientEnded : Bool := false
  /-- The client object was dropped. -/
  dropped : Bool := false
  nextStart : Nat := 0

namespace PeerRun

def act (r : PeerRun) (a : Socket.Action) : PeerRun := { r with socket := r.socket.act a }

/-- The server's end closes. -/
def hangUp (r : PeerRun) : PeerRun := { r.act .finish with server := .closed }

def closeIf (r : PeerRun) (close : Bool) : PeerRun := if close then r.act .close else r

/-- The server accepts a stream and replies; the client may close in between. -/
def accept (r : PeerRun) (closeMidway : Bool) : PeerRun :=
  let reply := r.replies.headD .echo
  let r := ({ r with replies := r.replies.tail, server := .opened, clientEnded := false }.act .opened).closeIf closeMidway
  match reply with
  | .echo => r.act (.arrive (Text.Utf8.encode greeting))
  | .octets octets hangUp afterClose =>
    if afterClose && !closeMidway then r
    else
      let r := r.act (.arrive octets)
      if hangUp then r.hangUp else r
  | .hangUp => r.hangUp
  | .silent => r

/-- A start that waits for more of a reply waits until its time is over. -/
def await (r : PeerRun) : PeerRun :=
  match r.socket.attempts with
  | ⟨_, .greeted _⟩ :: _ => r.act .timedOut
  | _ => r

/-- Opens the streams of the starts in progress. The server accepts the first one, and nothing
comes back on the next. -/
def connect (r : PeerRun) (closeMidway : Bool) : PeerRun :=
  if r.socket.attempts.isEmpty then r.closeIf closeMidway
  else
    match r.network with
    | .failing cause => ((r.act (.unopened cause)).act (.unopened cause)).closeIf closeMidway
    | .reachable => ((r.accept closeMidway).await.act .opened).await

/-- The outcomes of the starts that ended. -/
def startResults (journal : List Socket.Entry) : List Json :=
  journal.filterMap fun
    | .started _ result => some (Report.outcome Report.transportFailure (fun _ => Report.done) result)
    | _ => none

/-- Takes a step, and gives what it answers. -/
def begin (r : PeerRun) : PeerStep → PeerRun × Json
  | .listen name => (r.act (.listen { name }), Report.done)
  | .start twice closeMidway =>
    let ids := if twice then [r.nextStart, r.nextStart + 1] else [r.nextStart]
    let r := ids.foldl (fun r id => r.act (.start id)) { r with nextStart := r.nextStart + ids.length }
    let r := r.connect closeMidway
    (r, .arr (startResults r.socket.journal))
  | .send messages =>
    messages.foldl (fun (r, answer) m =>
      match (r.socket.send m).2 with
      | .ok () => (r.act (.send m), answer)
      | .error e => (r, Report.transportFailure e)) (r, Report.done)
  | .close => (r.act .close, Report.done)
  | .drop => ({ r.act .drop with dropped := true }, Report.done)
  | .serverSend octets =>
    if r.server = .none then (r, .str "no peer") else (r.act (.arrive octets), Report.done)
  | .serverClose => (if r.server = .opened then r.hangUp else r, Report.done)

/-! ### Reports -/

def heard : Socket.Heard → List Json
  | .message m => [.str "message", Report.message m]
  | .endOfStream => [.str "eos"]
  | .closed => [.str "closed"]

/-- What a step reports beside its answer, from what happened in it. -/
def history (r : PeerRun) (journal : List Socket.Entry) : List (String × Json) :=
  let events := journal.filterMap fun
    | .heard listener what => some (Json.arr (.str listener :: heard what))
    | _ => none
  let log := journal.filterMap fun
    | .notice n => some (Json.str n.line)
    | _ => none
  let got := journal.flatMap fun
    | .wrote octets => octets
    | _ => []
  [("events", .arr events), ("log", .arr log), ("server_got", .ofOption .str (Text.Utf8.decode? got)),
    ("server_eof", .bool r.clientEnded),
    ("connected", if r.dropped then .null else .bool r.socket.isConnected)]

def hasHungUp (journal : List Socket.Entry) : Bool :=
  journal.any fun
    | .hungUp => true
    | _ => false

/-- Takes a step and reports it. -/
def take (r : PeerRun) (step : PeerStep) : PeerRun × Json :=
  let (r, answer) :=
    if r.dropped && step.ofClient then (r, Json.str "no connection") else r.begin step
  let r := (r.act .write).act .read
  let journal := r.socket.journal
  let ended := r.server == .opened && (r.clientEnded || hasHungUp journal)
  let r := { r with socket := { r.socket with journal := [] }, clientEnded := ended }
  (r, .ofFields (("r", answer) :: r.history journal))

def takeAll (r : PeerRun) : List PeerStep → List Json
  | [] => []
  | step :: rest =>
    let (r, report) := r.take step
    report :: takeAll r rest

end PeerRun

end RemoteDebug.Scenario
