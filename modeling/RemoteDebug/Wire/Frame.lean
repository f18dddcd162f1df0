import RemoteDebug.Json.Printer
import RemoteDebug.Json.Reader
import RemoteDebug.Protocol.Message
import RemoteDebug.Wire.Error

/-! Frames: a message as header lines, an empty line and a body of announced length.

`encode` writes a frame. `next` reads one from the octets received so far; without
the end of the stream among them it may have to wait for more. Header names match
without regard to ASCII case, unknown headers are skipped, the last of several
counts, and lines may end in any run of CR and LF. -/
namespace RemoteDebug.Wire
open Protocol

abbrev Octets := List UInt8

/-- The line that both sides send first. -/
def greeting : String := "ChromeDevToolsHandshake\r\n"

/-- The largest body, in octets. -/
def maxLength : Nat := 64 * 1024 * 1024

/-- The body of a message: nothing for null, else the text of the content. -/
def body (m : Message) : Octets :=
  match m.content with
  | .null => []
  | content => Text.Utf8.encodeChars content.chars

def headerLine (name value : List Char) : List Char := name ++ ':' :: value ++ ['\r', '\n']

/-- The header lines of a message with a body of `length` octets, and the empty line. -/
def headers (tool : String) (destination : Option String) (length : Nat) : List Char :=
  headerLine "Tool".toList tool.toList
    ++ (destination.map fun d => headerLine "Destination".toList d.toList).getD []
    ++ headerLine "Content-Length".toList (Text.digits length)
    ++ ['\r', '\n']

def encode (m : Message) : Octets :=
  let body := body m
  Text.Utf8.encodeChars (headers m.tool m.destination body.length) ++ body

/-! ### Reading -/

/-- What reading one frame comes to. -/
inductive Reading where
  | message (m : Message)
  /-- A whole frame whose body is not JSON. -/
  | badBody (fault : Json.Fault)
  | failed (e : TransportError)
  /-- The stream ended between frames. -/
  | finished
  deriving Repr, Inhabited

/-- The headers seen so far. -/
structure Headers where
  any : Bool := false
  tool : Option String := none
  destination : Option String := none
  length : Option Nat := none
  deriving Repr, Inhabited

/-- The octets up to and with the next line feed, and those behind it. -/
def line? (input : Octets) : Option (Octets × Octets) :=
  match input.span (· != 0x0A) with
  | (_, []) => none
  | (text, feed :: rest) => some (text ++ [feed], rest)

def isLineEnd (c : Char) : Bool := c == '\r' || c == '\n'

def sameName (a b : List Char) : Bool := a.map Char.toLower == b.map Char.toLower

/-- Adds a header line that is not empty. -/
def Headers.add (h : Headers) (text : List Char) : Except FramingFault Headers :=
  match Text.splitAt? ':' text with
  | none => .error (.malformedHeader (String.ofList text))
  | some (name, value) =>
    let value := Text.trim value
    if sameName name "Tool".toList then
      .ok { h with any := true, tool := some (String.ofList value) }
    else if sameName name "Destination".toList then
      .ok { h with any := true, destination := some (String.ofList value) }
    else if sameName name "Content-Length".toList then
      match Text.parseBelow UInt64.size value with
      | some length => .ok { h with any := true, length := some length }
      | none => .error (.badLength (String.ofList value))
    else .ok { h with any := true }

/-- Blank in the sense of ASCII. -/
def isAsciiBlank (b : UInt8) : Bool :=
  b == 0x20 || b == 0x09 || b == 0x0A || b == 0x0C || b == 0x0D

/-- The content that a body stands for. -/
def contentOf (body : Octets) : Except Json.Fault Json :=
  if body.all isAsciiBlank then .ok .null else Json.parse body

/-- The body behind complete headers; `none` waits for more octets. -/
def readBody (ended : Bool) (h : Headers) (input : Octets) : Option (Reading × Octets) :=
  match h.tool, h.length with
  | none, _ => some (.failed (.framing .missingTool), input)
  | some _, none => some (.failed (.framing .missingLength), input)
  | some tool, some length =>
    if maxLength < length then some (.failed (.framing (.tooLong length)), input)
    else
      let body := input.take length
      if body.length = length then
        let rest := input.drop length
        match contentOf body with
        | .ok content => some (.message (.ofHeaders tool h.destination content), rest)
        | .error fault => some (.badBody fault, rest)
      else if ended then some (.failed (.framing (.bodyCut length)), [])
      else none

/-- What one line does to the reading of headers. -/
inductive LineStep where
  | more (h : Headers)
  | complete
  | failed (e : TransportError)

def lineStep (h : Headers) (line : Octets) : LineStep :=
  match Text.Utf8.decodeChars line with
  | .error fault => .failed (.stream (.notUtf8 fault))
  | .ok chars =>
    match Text.dropEndWhile isLineEnd chars with
    | [] => if h.any then .complete else .more h
    | text =>
      match h.add text with
      | .ok h => .more h
      | .error fault => .failed (.framing fault)

/-- Reads header lines; the number bounds the lines. At the end of the stream the octets behind
the last line feed are a line too, if there are any. -/
def readHeaders (ended : Bool) : (lines : Nat) → Headers → Octets → Option (Reading × Octets)
  | 0, _, _ => none
  | lines + 1, h, input =>
    match line? input with
    | some (line, rest) =>
      match lineStep h line with
      | .more h => readHeaders ended lines h rest
      | .complete => readBody ended h rest
      | .failed e => some (.failed e, rest)
    | none =>
      if !ended then none
      else if input.isEmpty then
        some (if h.any then .failed (.framing .endInHeaders) else .finished, [])
      else
        match lineStep h input with
        | .more h => some (if h.any then .failed (.framing .endInHeaders) else .finished, [])
        | .complete => readBody ended h []
        | .failed e => some (.failed e, [])

/-- Reads one frame from the octets received so far, and gives the octets behind it. With
`ended` nothing follows these octets, and there is always an answer. -/
def next (ended : Bool) (input : Octets) : Option (Reading × Octets) :=
  readHeaders ended (input.length + 1) {} input

/-- Reads one frame from a whole stream. -/
def readMessage (input : Octets) : Reading × Octets := (next true input).getD (.finished, [])

/-- The length of the body that the octets received so far belong to and do not complete. -/
def bodyAwaited? : (lines : Nat) → Headers → Octets → Option Nat
  | 0, _, _ => none
  | lines + 1, h, input =>
    match line? input with
    | none => none
    | some (line, rest) =>
      match lineStep h line with
      | .more h => bodyAwaited? lines h rest
      | .complete => h.length
      | .failed _ => none

/-- What reading fails with where the stream fails instead of giving more octets. -/
def interruption (input : Octets) (cause : StreamFailure) : TransportError :=
  match bodyAwaited? (input.length + 1) {} input with
  | some length => .framing (.bodyLost length cause)
  | none => .stream cause

/-- More frames may follow; the end and every failure but a bad body are the last thing read. -/
def Reading.goesOn : Reading → Bool
  | .message _ | .badBody _ => true
  | _ => false

/-- Reads frame after frame; the number bounds the frames. -/
def readings (ended : Bool) : (frames : Nat) → Octets → List Reading × Octets
  | 0, input => ([], input)
  | frames + 1, input =>
    match next ended input with
    | none => ([], input)
    | some (r, rest) =>
      if r.goesOn then
        let (more, left) := readings ended frames rest
        (r :: more, left)
      else ([r], rest)

/-- All that can be read from the octets received so far, and the octets left. A frame takes an
octet at least. -/
def available (ended : Bool) (input : Octets) : List Reading × Octets :=
  readings ended (input.length + 1) input

/-- All that a whole stream holds, and the octets left. -/
def readAll (input : Octets) : List Reading × Octets := available true input

end RemoteDebug.Wire
