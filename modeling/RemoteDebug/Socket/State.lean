import RemoteDebug.Engine.Journal
import RemoteDebug.Wire.Frame

/-! A connection over a stream of octets.

It is not started, connected or closed, and closed is for good. A start opens a
stream, sends the greeting and waits for the same line; starts take turns. Then a
reader hands each frame to the listener and a writer sends what is queued. Closing
stops both, but a reader at work notices only when it has to wait for more octets:
what is buffered by then it still hands out. -/
namespace RemoteDebug.Socket
open Protocol Wire

inductive Phase where
  | notStarted
  | connected
  | closed
  deriving DecidableEq, Repr, Inhabited

/-- What a listener is told. -/
inductive Heard where
  | message (m : Message)
  | endOfStream
  | closed
  deriving Repr

structure Listener where
  name : String
  /-- What makes it close the connection while it is told. -/
  closesOn : Heard → Bool := fun _ => false

instance : Inhabited Listener := ⟨{ name := "" }⟩

/-- How far a start has come. -/
inductive Stage where
  | queued
  | connecting
  /-- The greeting is sent, and so much came back. -/
  | greeted (received : Octets)
  deriving DecidableEq, Repr, Inhabited

structure Attempt where
  id : Nat
  stage : Stage := .queued
  deriving DecidableEq, Repr, Inhabited

/-- The stream of a connection, as long as its reader lives. -/
structure Link where
  /-- Received and not yet read. -/
  buffer : Octets
  /-- Nothing more will be received. -/
  ended : Bool := false
  /-- The reader is at work, and has not had to wait yet. -/
  reading : Bool := false
  deriving DecidableEq, Repr, Inhabited

inductive Notice where
  | malformedBody
  | readError (e : TransportError)
  | writeError (cause : StreamFailure)
  deriving Repr

/-- The log line; of a malformed body it says no more than that. -/
def Notice.line : Notice → String
  | .malformedBody => Engine.logLine .error "Dropping message with malformed body" none
  | .readError e => Engine.logLine .error s!"Transport read error: {e.message}" none
  | .writeError cause => Engine.logLine .error s!"Transport write error: {cause.message}" none

inductive Entry where
  | heard (listener : String) (what : Heard)
  | notice (n : Notice)
  | started (attempt : Nat) (result : Except TransportError Unit)
  | wrote (octets : Octets)
  /-- This side closed the stream. -/
  | hungUp

structure State where
  /-- Where the connection goes to. -/
  address : String
  phase : Phase := .notStarted
  listener : Option Listener := none
  /-- The starts in progress; only the first one is past the queue. -/
  attempts : List Attempt := []
  link : Option Link := none
  /-- The reader is to stop when it next waits. -/
  stopping : Bool := false
  /-- The writer lives, and takes what is queued. -/
  writing : Bool := false
  outbound : List Message := []
  journal : List Entry := []
  deriving Inhabited

namespace State

def record (s : State) (e : Entry) : State := { s with journal := s.journal ++ [e] }

def isConnected (s : State) : Bool := s.phase == .connected

/-- The reader is at work. -/
def isReading (s : State) : Bool := s.link.any (·.reading)

/-- Tells the listener something. -/
def tell (s : State) (what : Heard) : State :=
  match s.listener with
  | some l => s.record (.heard l.name what)
  | none => s

/-- Closes for good. Only what was connected is told. -/
def close (s : State) : State :=
  match s.phase with
  | .connected => { s with phase := .closed, stopping := true, writing := false, outbound := [] }.tell .closed
  | _ => { s with phase := .closed }

/-- Tells the listener something, which may make it close the connection. -/
def hear (s : State) (what : Heard) : State :=
  if s.listener.any (·.closesOn what) then (s.tell what).close else s.tell what

/-! ### Starting -/

/-- The outcome of a start that opens no stream of its own, if there is one. -/
def settled? (s : State) : Option (Except TransportError Unit) :=
  match s.phase with
  | .notStarted => none
  | .connected => some (.ok ())
  | .closed => some (.error .alreadyClosed)

/-- Lets the first waiting start go on; if no stream is needed, all waiting ones end. -/
def promote (s : State) : State :=
  match s.attempts with
  | ⟨id, .queued⟩ :: rest =>
    match s.settled? with
    | none => { s with attempts := ⟨id, .connecting⟩ :: rest }
    | some result =>
      s.attempts.foldl (fun s a => s.record (.started a.id result)) { s with attempts := [] }
  | _ => s

def start (s : State) (id : Nat) : State :=
  { s with attempts := s.attempts ++ [({ id } : Attempt)] }.promote

/-- The first start ends. -/
def conclude (s : State) (result : Except TransportError Unit) : State :=
  match s.attempts with
  | [] => s
  | a :: rest => ({ s with attempts := rest }.record (.started a.id result)).promote

/-- The first start fails after its stream was opened. -/
def giveUp (s : State) (e : TransportError) : State := (s.record .hungUp).conclude (.error e)

/-- The stream of the first start is open: the greeting goes out. -/
def opened (s : State) : State :=
  match s.attempts with
  | ⟨id, .connecting⟩ :: rest =>
    { s with attempts := ⟨id, .greeted []⟩ :: rest }.record (.wrote (Text.Utf8.encode greeting))
  | _ => s

/-- The stream of the first start cannot be opened. -/
def unopened (s : State) (cause : StreamFailure) : State :=
  match s.attempts with
  | ⟨_, .connecting⟩ :: _ => s.conclude (.error (.connectFailed s.address cause))
  | _ => s

/-- The first start has taken too long. -/
def timedOut (s : State) : State :=
  match s.attempts with
  | ⟨_, .connecting⟩ :: _ => s.conclude (.error (.timeout (.connection s.address)))
  | ⟨_, .greeted _⟩ :: _ => s.giveUp (.timeout (.connection s.address))
  | _ => s

/-- Why a line is no greeting, if it is none. -/
def greetingFault? (line : Octets) : Option TransportError :=
  match Text.Utf8.decodeChars line with
  | .error fault => some (.stream (.notUtf8 fault))
  | .ok chars =>
    if String.ofList chars = greeting then none
    else some (.handshake (.unexpectedReply (String.ofList (Text.trimEnd chars))))

/-- The other side has answered with a line; the octets behind it belong to the connection. -/
def answered (s : State) (line rest : Octets) : State :=
  match greetingFault? line with
  | some e => s.giveUp e
  | none =>
    if s.phase = .closed then s.giveUp .alreadyClosed
    else { s with phase := .connected, link := some { buffer := rest }, writing := true }.conclude (.ok ())

/-! ### The stream -/

/-- Octets arrive; behind the end of the stream there are none. -/
def arrive (s : State) (octets : Octets) : State :=
  match s.attempts, s.link with
  | ⟨id, .greeted received⟩ :: rest, _ =>
    match line? (received ++ octets) with
    | some (line, behind) => s.answered line behind
    | none => { s with attempts := ⟨id, .greeted (received ++ octets)⟩ :: rest }
  | _, some link =>
    if link.ended then s else { s with link := some { link with buffer := link.buffer ++ octets } }
  | _, none => s

/-- The other side ends its stream. -/
def finish (s : State) : State :=
  match s.attempts, s.link with
  | ⟨_, .greeted received⟩ :: _, _ => s.answered received []
  | _, some link => { s with link := some { link with ended := true } }
  | _, none => s

/-- What the reader does with one thing that it has read. -/
def process (s : State) : Reading → State
  | .message m => s.hear (.message m)
  | .badBody _ => s.record (.notice .malformedBody)
  | .finished => (s.hear .endOfStream).close
  | .failed e => ((s.record (.notice (.readError e))).hear .endOfStream).close

/-- The reader is gone, and the stream with it. -/
def release (s : State) : State := { s with link := none }.record .hungUp

/-- The reader has to wait. One that is to stop does not wait. -/
def rest (s : State) (link : Link) : State :=
  if s.stopping then s.release else { s with link := some { link with reading := false } }

/-- One turn of the reader: it reads one thing, or has to wait. One that is to stop does not begin. -/
def turn (s : State) : State :=
  match s.link with
  | none => s
  | some link =>
    if s.stopping && !link.reading then s.release
    else
      match next link.ended link.buffer with
      | none => s.rest link
      | some (r, buffer) =>
        let s := { s with link := some { link with buffer, reading := true } }.process r
        if r.goesOn then s else s.release

/-- The reader goes on; the number bounds its turns. -/
def turns : Nat → State → State
  | 0, s => s
  | n + 1, s => if s.turn.isReading then turns n s.turn else s.turn

/-- The reader runs until it has to wait. Each turn but the last takes an octet at least. -/
def read (s : State) : State := s.turns ((s.link.elim 0 fun link => link.buffer.length) + 1)

/-- The stream fails: a start that waits for an answer fails, and a reader that has to wait. -/
def interrupted (s : State) (cause : StreamFailure) : State :=
  match s.attempts, s.link with
  | ⟨_, .greeted _⟩ :: _, _ => s.giveUp (.stream cause)
  | _, some link =>
    if s.stopping && !link.reading then s.release
    else if (next link.ended link.buffer).isSome then s
    else (s.process (.failed (interruption link.buffer cause))).release
  | _, none => s

/-- The writer sends what is queued. -/
def write (s : State) : State :=
  if s.outbound.isEmpty then s
  else { s with outbound := [] }.record (.wrote (s.outbound.flatMap encode))

/-- The writer cannot send what is queued, and closes the connection. -/
def unwritten (s : State) (cause : StreamFailure) : State :=
  if s.outbound.isEmpty then s else (s.record (.notice (.writeError cause))).close

def send (s : State) (m : Message) : State × Except TransportError Unit :=
  match s.phase with
  | .connected =>
    if s.writing then ({ s with outbound := s.outbound ++ [m] }, .ok ()) else (s, .error .channelClosed)
  | .notStarted => (s, .error .notConnected)
  | .closed => (s, .error .alreadyClosed)

/-- The connection is given up without a word: reader and writer are stopped. -/
def drop (s : State) : State :=
  match s.phase with
  | .connected => { s with stopping := true, writing := false, outbound := [] }
  | _ => s

end State

/-! ### Histories -/

inductive Action where
  | listen (l : Listener)
  | start (id : Nat)
  | opened
  | unopened (cause : StreamFailure)
  | timedOut
  | arrive (octets : Octets)
  | finish
  | interrupted (cause : StreamFailure)
  | turn
  | read
  | write
  | unwritten (cause : StreamFailure)
  | send (m : Message)
  | close
  | drop

namespace State

def act (s : State) : Action → State
  | .listen l => { s with listener := some l }
  | .start id => s.start id
  | .opened => s.opened
  | .unopened cause => s.unopened cause
  | .timedOut => s.timedOut
  | .arrive octets => s.arrive octets
  | .finish => s.finish
  | .interrupted cause => s.interrupted cause
  | .turn => s.turn
  | .read => s.read
  | .write => s.write
  | .unwritten cause => s.unwritten cause
  | .send m => (s.send m).1
  | .close => s.close
  | .drop => s.drop

def run (s : State) (actions : List Action) : State := actions.foldl act s

theorem run_append (s : State) (a b : List Action) : s.run (a ++ b) = (s.run a).run b :=
  List.foldl_append

end State

end RemoteDebug.Socket
