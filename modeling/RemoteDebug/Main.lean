import RemoteDebug.Cli.Client
import RemoteDebug.Cli.Usage
import Std.Async.DNS
import Std.Async.Signal
import Std.Async.TCP
import Std.Async.Timer

/-! The program: a client whose stream is a TCP connection and whose clock is the system's.

Everything is decided by `Client`; here its lines are printed, its octets sent, and
what happens handed to it. -/
namespace RemoteDebug.Cli
open Std.Async Std.Net Wire

/-- A failure with a number of the system, which may come negated. -/
def numbered (number : UInt32) (text : String) : StreamFailure :=
  let n := number.toInt32.toInt.natAbs
  if n = 111 then .connectionRefused
  else if n = 101 then .networkUnreachable
  else .system n text

/-- A failure of the system as a failure of the stream. -/
def streamFailure : IO.Error → StreamFailure
  | .otherError number text | .resourceVanished number text | .timeExpired number text
  | .noSuchThing _ number text | .permissionDenied _ number text
  | .invalidArgument _ number text => numbered number text
  | .unexpectedEof => .unexpectedEnd
  | e => .system 0 e.toString

/-- What can wake the program. -/
inductive Wake where
  | received (octets : Option ByteArray)
  | due
  | interrupted

structure Streams where
  out : IO.FS.Stream
  err : IO.FS.Stream
  /-- Whether warnings are logged too. -/
  warnings : Bool

/-- Prints, logs and sends what the client has for each. -/
def emit (s : Streams) (socket : TCP.Socket.Client) (c : Client) : IO Client := do
  for line in c.printed do
    s.out.putStrLn line
  s.out.flush
  for line in c.logged do
    if s.warnings || line.startsWith "ERROR" then s.err.putStrLn line
  unless c.outgoing.isEmpty do
    (socket.send (ByteArray.mk c.outgoing.toArray)).block
  return { c with printed := [], outgoing := [], logged := [] }

/-- Waits for octets, for the time when something is due, or for an interrupt. -/
def wake (socket : TCP.Socket.Client) (signal : Signal.Waiter) (left : Option Nat) : Async Wake := do
  let mut sources : Array (Selectable Wake) :=
    #[.case (socket.recvSelector 65536) fun octets => return .received octets,
      .case signal.selector fun _ => return .interrupted]
  if let some ms := left then
    let timer ← Selector.sleep (.ofNat ms)
    sources := sources.push (.case timer fun _ => return .due)
  Selectable.one sources

/-- Serves the client until its command is finished. -/
partial def serve (s : Streams) (socket : TCP.Socket.Client) (signal : Signal.Waiter)
    (began : Nat) (opening : Option Nat) (c : Client) : IO Client := do
  let c ← emit s socket c
  if c.isFinished then return c
  let now := (← IO.monoMsNow) - began
  let c := if now > c.session.clock then c.tick (now - c.session.clock) else c
  if c.isFinished then return ← emit s socket c
  let opening := if c.socket.isConnected then none else opening
  let due := opening <|> c.due?
  let c ← match ← (wake socket signal (due.map (· - now))).block with
    | .received (some octets) => pure (c.happens (.arrive octets.toList))
    | .received none => pure (c.happens .finish)
    | .due => pure (if opening.isSome then c.happens .timedOut else c)
    | .interrupted => pure c.interrupt
  serve s socket signal began opening c

/-- The address of a host, which may be a name. -/
def resolve (host : String) : Async IPAddr := do
  match IPv4Addr.ofString host with
  | some address => return .v4 address
  | none =>
    let addresses ← DNS.getAddrInfo host ""
    match addresses[0]? with
    | some address => return address
    | none => throw (IO.userError "no address")

/-- Connects to where the invocation says. -/
def dial (socket : TCP.Socket.Client) (i : Invocation) : Async Unit := do
  let port := UInt16.ofNat i.port
  match ← resolve i.host with
  | .v4 addr => socket.connect (.v4 { addr, port })
  | .v6 addr => socket.connect (.v6 { addr, port })

/-- Runs one command, and gives the code with which the program ends. -/
def runCommand (s : Streams) (i : Invocation) : IO UInt32 := do
  let socket ← TCP.Socket.Client.mk
  let signal ← Signal.Waiter.mk .sigint true
  let began ← IO.monoMsNow
  let opened ← (dial socket i).block.toBaseIO
  let c := match opened with
    | .ok () => (Client.new i).happens .opened
    | .error e => (Client.new i).happens (.unopened (streamFailure e))
  let c ← serve s socket signal began (some i.timeout) c
  match c.stage with
  | .finished (.error causes) =>
    s.err.putStrLn (Client.failureLine causes)
    return 1
  | _ => return 0

end RemoteDebug.Cli

open RemoteDebug in
/-- The program `check`s a server, lists its `tabs`, or `attach`es to one. -/
def main (arguments : List String) : IO UInt32 := do
  let out ← IO.getStdout
  let err ← IO.getStderr
  match Cli.parse arguments with
  | .ok i => Cli.runCommand { out, err, warnings := i.verbosity > 0 } i
  | .error r =>
    (if r.isFault then err else out).putStrLn r.text
    return UInt32.ofNat r.exitCode
