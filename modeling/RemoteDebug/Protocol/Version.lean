import RemoteDebug.Json.Shape
import RemoteDebug.Text.Blank
import RemoteDebug.Text.Numeral

/-! Protocol versions, their text `major.minor`, and which servers a client may talk to. -/
namespace RemoteDebug.Protocol

structure Version where
  major : UInt32
  minor : UInt32
  deriving DecidableEq, Repr, Inhabited

namespace Version

def chars (v : Version) : List Char :=
  Text.digits v.major.toNat ++ '.' :: Text.digits v.minor.toNat

def text (v : Version) : String := String.ofList v.chars

/-- Two numerals below `2 ^ 32` around the first point, with blanks at both ends ignored. -/
def ofChars? (s : List Char) : Option Version := do
  let (major, minor) ← Text.splitAt? '.' (Text.trim s)
  return ⟨← Text.parseUInt32 major, ← Text.parseUInt32 minor⟩

def ofString? (s : String) : Option Version := ofChars? s.toList

/-- The message for a text that is not a version. -/
def refusal (s : String) : String := s!"invalid protocol version: {Text.quote s}"

def toJson (v : Version) : Json := .str v.text

/-- Reads the JSON form, a string. -/
def ofJson (v : Json) : Except Json.Mismatch Version := do
  let s ← v.asString
  match ofString? s with
  | some version => return version
  | none => .error (.content (refusal s))

/-- By major, then by minor number. -/
def order (a b : Version) : Ordering :=
  (compare a.major b.major).then (compare a.minor b.minor)

/-- The text of a version with its parts named, for logs. -/
def namedText (v : Version) : String :=
  s!"Version \x7b major: {v.major.toNat}, minor: {v.minor.toNat} \x7d"

end Version

/-- Which server versions a client accepts. -/
inductive Compatibility where
  /-- The majors are equal and the server's minor is at least the client's. -/
  | sameMajor
  | exact
  deriving DecidableEq, Repr, Inhabited

def Compatibility.accepts (rule : Compatibility) (client server : Version) : Bool :=
  match rule with
  | .sameMajor => client.major == server.major && decide (client.minor ≤ server.minor)
  | .exact => client == server

end RemoteDebug.Protocol
