import RemoteDebug.Text.Quoted
import RemoteDebug.Text.Span
import RemoteDebug.Text.Utf8

/-! What can go wrong between a client and a debuggee, and how it is told. -/
namespace RemoteDebug.Wire

/-- A failure of the stream itself. -/
inductive StreamFailure where
  | timedOut
  | refused
  | reset
  | unexpectedEnd
  /-- A failure with a number and a text of the operating system. -/
  | system (number : Nat) (text : String)
  /-- A line that is not UTF-8. -/
  | notUtf8 (fault : Text.Utf8.Malformed)
  deriving DecidableEq, Repr

namespace StreamFailure

def networkUnreachable : StreamFailure := .system 101 "Network is unreachable"

def connectionRefused : StreamFailure := .system 111 "Connection refused"

def message : StreamFailure → String
  | .timedOut => "timed out"
  | .refused => "connection refused"
  | .reset => "connection reset"
  | .unexpectedEnd => "unexpected end of file"
  | .system number text => s!"{text} (os error {number})"
  | .notUtf8 ⟨index, some length⟩ => s!"invalid utf-8 sequence of {length} bytes from index {index}"
  | .notUtf8 ⟨index, none⟩ => s!"incomplete utf-8 byte sequence from index {index}"

/-- Number 110 is the system's own timeout. -/
def isTimeout : StreamFailure → Bool
  | .timedOut => true
  | .system number _ => number == 110
  | _ => false

end StreamFailure

/-- A frame whose headers or length are not as they must be. -/
inductive FramingFault where
  | endInHeaders
  | malformedHeader (line : String)
  | badLength (value : String)
  | missingTool
  | missingLength
  | tooLong (length : Nat)
  | bodyCut (length : Nat)
  /-- The stream failed within a body. -/
  | bodyLost (length : Nat) (cause : StreamFailure)
  | reported (text : String)
  deriving DecidableEq, Repr

def FramingFault.message : FramingFault → String
  | .endInHeaders => "unexpected end of stream in headers"
  | .malformedHeader line => s!"malformed header line: {Text.quote line}"
  | .badLength value => s!"bad Content-Length: {Text.quote value}"
  | .missingTool => "missing Tool header"
  | .missingLength => "missing Content-Length header"
  | .tooLong length => s!"Content-Length {length} exceeds limit"
  | .bodyCut length => s!"failed to read {length}-byte body: early eof"
  | .bodyLost length cause => s!"failed to read {length}-byte body: {cause.message}"
  | .reported text => text

/-- What was waited for in vain. -/
inductive Awaited where
  | reply (command : String) (nanos : Nat)
  | connection (address : String)
  | reported (text : String)
  deriving DecidableEq, Repr

def Awaited.message : Awaited → String
  | .reply command nanos => s!"no reply to '{command}' within {Text.spanText nanos}"
  | .connection address => s!"connecting to {address}"
  | .reported text => text

/-- What was wrong with the other side's first line. -/
inductive HandshakeFault where
  | unexpectedReply (line : String)
  | reported (text : String)
  deriving DecidableEq, Repr

def HandshakeFault.message : HandshakeFault → String
  | .unexpectedReply line => s!"unexpected reply {Text.quote line}"
  | .reported text => text

inductive TransportError where
  | connectFailed (address : String) (cause : StreamFailure)
  | handshake (fault : HandshakeFault)
  | framing (fault : FramingFault)
  | notConnected
  | alreadyClosed
  /-- The connection closed while a reply was awaited. -/
  | channelClosed
  | timeout (awaited : Awaited)
  | stream (cause : StreamFailure)
  deriving DecidableEq, Repr

namespace TransportError

def message : TransportError → String
  | .connectFailed address cause => s!"Failed to connect to {address}: {cause.message}"
  | .handshake fault => s!"Handshake failed: {fault.message}"
  | .framing fault => s!"Framing error: {fault.message}"
  | .notConnected => "Connection is not started"
  | .alreadyClosed => "Connection already closed"
  | .channelClosed => "Channel closed unexpectedly"
  | .timeout awaited => s!"Timeout: {awaited.message}"
  | .stream cause => s!"I/O error: {cause.message}"

def isTimeout : TransportError → Bool
  | .timeout _ => true
  | .connectFailed _ cause | .stream cause => cause.isTimeout
  | _ => false

/-- The message, then the message of each deeper cause. -/
def causes (e : TransportError) : List String :=
  e.message :: match e with
    | .connectFailed _ cause | .stream cause => [cause.message]
    | _ => []

end TransportError

end RemoteDebug.Wire
