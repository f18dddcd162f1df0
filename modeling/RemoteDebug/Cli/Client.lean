import RemoteDebug.Cli.Arguments
import RemoteDebug.Cli.Console
import RemoteDebug.Engine.Action
import RemoteDebug.Socket.State

/-! The command-line client: a socket, a session on it, and the course of one command.

The client is driven by what happens to its stream and by time. It gives lines to
print, lines to log and octets to send, and in the end a result. Messages that
arrive together are handed to the session one after another before any call goes
on. -/
namespace RemoteDebug.Cli
open Engine Protocol Wire

inductive Stage where
  /-- The stream is being opened. -/
  | opening
  | connecting
  | pinging
  | listing
  | attaching (tab : Instance)
  /-- Attached; at the end of the time, if there is one, the client leaves. -/
  | watching (tab : Instance) (limit : Option Nat)
  | detaching (tab : Instance)
  /-- The result: what a failure says, from the outside to its cause. -/
  | finished (result : Except (List String) Unit)

instance : Inhabited Stage := ⟨.opening⟩

structure Client where
  invocation : Invocation
  socket : Socket.State
  session : Engine.State
  stage : Stage := .opening
  /-- The number of the next call. -/
  nextCall : CallId := 0
  /-- The listener was told of the end of the attachment. -/
  toldDetached : Bool := false
  /-- Lines to print, octets to send, and lines to log, that were not taken yet. -/
  printed : List String := []
  outgoing : Octets := []
  logged : List String := []

namespace Client

def nanos (i : Invocation) : Nat := i.timeout * 1000000

/-- A client before its stream is opened. -/
def new (i : Invocation) : Client :=
  { invocation := i
    socket := Socket.State.run { address := s!"{i.host}:{i.port}" } [.listen { name := "session" }, .start 0]
    session := { config := { timeout := nanos i } } }

def print (c : Client) (line : String) : Client := { c with printed := c.printed ++ [line] }

def log (c : Client) (line : String) : Client := { c with logged := c.logged ++ [line] }

def act (c : Client) (a : Engine.Action) : Client := { c with session := c.session.act a }

/-- Starts a call and waits for it. -/
def call (c : Client) (r : Request) (stage : Stage) : Client :=
  { c.act (.start c.nextCall r) with nextCall := c.nextCall + 1, stage }

def isFinished (c : Client) : Bool :=
  match c.stage with
  | .finished _ => true
  | _ => false

/-- Ends with a result; the connection is closed. -/
def finish (c : Client) (result : Except (List String) Unit) : Client :=
  { c.act .close with stage := .finished result }

def fail (c : Client) (context : String) (causes : List String) : Client :=
  c.finish (.error (context :: causes))

/-! ### The course of a command -/

/-- The listing of a tab, as a line. -/
def listedLine (l : Listed) : String := s!"{Message.tabText l.id}\t{l.url}"

def listed (c : Client) (tabs : List Listed) : Client :=
  match c.invocation.command with
  | .attach id _ _ =>
    match tabs.find? (·.id == id) with
    | none => c.finish (.error [s!"no tab with id {Message.tabText id}"])
    | some l => c.call (.attach l.tab { name := "printer" }) (.attaching l.tab)
  | _ =>
    let lines := if tabs.isEmpty then ["no debuggable tabs"] else tabs.map listedLine
    (lines.foldl print c).finish (.ok ())

/-- The tab is attached: the script goes out, and the client watches. -/
def attached (c : Client) (t : Instance) : Client :=
  let (id, url) := ((c.session.tab? t).map fun tab => (tab.id, tab.url)).getD (0, "")
  let c := c.print s!"attached to tab {Message.tabText id} ({url})"
  let (script, seconds) := match c.invocation.command with
    | .attach _ script seconds => (script, seconds)
    | _ => (none, none)
  let limit := seconds.map fun n => c.session.clock + n * 1000
  match script with
  | none => { c with stage := .watching t limit }
  | some text =>
    match c.session.command t (.evaluate text) with
    | (session, .ok ()) => { c with session, stage := .watching t limit }
    | (session, .error e) => { c with session }.finish (.error e.causes)

/-- A call has ended. -/
def ended (c : Client) (r : Result) : Client :=
  match c.stage, r with
  | .connecting, .done (.error e) =>
    { c with stage := .finished (.error (s!"connecting to {c.socket.address}" :: e.causes)) }
  | .connecting, .done (.ok ()) =>
    match c.invocation.command with
    | .check => c.call .ping .pinging
    | _ => c.call .tabs .listing
  | .pinging, .done (.error e) => c.fail "ping" e.causes
  | .pinging, .done (.ok ()) => (c.print "ok").finish (.ok ())
  | .listing, .tabs (.error e) => c.fail "listing tabs" e.causes
  | .listing, .tabs (.ok tabs) => c.listed tabs
  | .attaching t, .handshake (.ok ()) => c.attached t
  | .attaching t, .handshake (.error e) =>
    let id := ((c.session.tab? t).map (·.id)).getD 0
    c.fail s!"attaching to tab {Message.tabText id}" e.causes
  | .detaching _, .handshake (.ok ()) => c.finish (.ok ())
  | .detaching t, .handshake (.error _) =>
    let id := (c.session.tab? t).map (·.id)
    (c.log (logLine .warning "Detach was not confirmed" id)).finish (.ok ())
  | _, _ => c

/-- The client stops watching, because its time is over or it is told to. -/
def leave (c : Client) : Client :=
  match c.stage with
  | .watching t _ => if c.session.isAttached t then c.call (.detach t) (.detaching t) else c.finish (.ok ())
  | _ => c

/-- Whether the client watches a tab that is gone, or for long enough. -/
def watched (c : Client) : Client :=
  match c.stage with
  | .watching _ limit =>
    if c.toldDetached then c.finish (.ok ())
    else if limit.any (· ≤ c.session.clock) then c.leave
    else c
  | _ => c

/-! ### The session and the socket -/

/-- What one thing that the session shows means for the client. -/
def shown (c : Client) : Engine.Entry → Client
  | .sent _ m => { c with socket := c.socket.act (.send m) }
  | .event t what =>
    let id := ((c.session.tab? t).map (·.id)).getD 0
    let c := (eventLine? id what).elim c c.print
    match what with
    | .disconnected _ => { c with toldDetached := true }
    | _ => c
  | .notice n => c.log n.line
  | .finished _ _ r => c.ended r
  | .connectionClosed => c

/-- What one thing that the socket shows means for the client. -/
def reported (c : Client) : Socket.Entry → Client
  | .heard _ (.message m) => c.act (.deliver m)
  | .heard _ .endOfStream => c
  | .heard _ .closed => c.act .close
  | .notice n => c.log n.line
  | .started _ (.ok ()) => c.call .connect .connecting
  | .started _ (.error e) => (c.act (.failStart e)).call .connect .connecting
  | .wrote octets => { c with outgoing := c.outgoing ++ octets }
  | .hungUp => c

/-- Takes in what the session has shown since the last time. -/
def followSession (c : Client) : Client :=
  let entries := c.session.journal
  entries.foldl shown { c with session := { c.session with journal := [] } }

/-- The socket closes when the session's connection did, and sends what is queued. -/
def followSocket (c : Client) : Client :=
  let closing := c.socket.isConnected && !c.session.connection.connected && c.nextCall != 0
  let socket := if closing then c.socket.act .close else c.socket
  let socket := socket.act .write
  let entries := socket.journal
  entries.foldl reported { c with socket := { socket with journal := [] } }

/-- One round: calls go on, and what comes of it reaches socket and client. -/
def round (c : Client) : Client :=
  ({ c with session := c.session.settle }.followSession.watched.followSession).followSocket

/-- Enough rounds for the longest command. -/
def rounds : Nat → Client → Client
  | 0, c => c
  | n + 1, c => rounds n c.round

def settle (c : Client) : Client := rounds 8 c

/-! ### What happens to a client -/

/-- Something happens to the socket, and the calls go on. -/
def socketActs (c : Client) (a : Socket.Action) : Client :=
  { c with socket := c.socket.act a }.followSocket.settle

/-- Something happens to the stream. The calls go on before the socket's reader runs. -/
def happens (c : Client) (a : Socket.Action) : Client := (c.socketActs a).socketActs .read

/-- Time passes, in milliseconds. -/
def tick (c : Client) (ms : Nat) : Client := (c.act (.advance ms)).settle

/-- The user ends the command. -/
def interrupt (c : Client) : Client := c.leave.settle

/-- When something is due that time alone brings about, if there is such a thing: the end of the
opening, of a wait for a reply, or of the watch. -/
def due? (c : Client) : Option Nat :=
  let waits := c.session.calls.filterMap fun call =>
    match call.point with
    | .awaiting _ deadline => some deadline
    | _ => none
  match c.stage with
  | .watching _ limit => limit
  | _ => waits.min?

/-- The last line of a command that failed. -/
def failureLine (causes : List String) : String := "error: " ++ ": ".intercalate causes

end Client

end RemoteDebug.Cli
