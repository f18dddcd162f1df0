/-! UTF-8: encoding, and decoding one octet at a time.

A decoder is either between characters or inside one: it then holds the bits
read so far, how many octets are still due, and the range in which the next one
must lie. That range excludes overlong forms, surrogates and values above
`U+10FFFF` at the second octet, so a completed value is always a character. -/
namespace RemoteDebug.Text.Utf8

def encodeChars (s : List Char) : List UInt8 := s.flatMap String.utf8EncodeChar

def encode (s : String) : List UInt8 := encodeChars s.toList

/-- Why octets are not UTF-8: the index at which the offending character starts,
and how many octets of it were read before the one that does not fit. Without a
length the text ended inside a character. -/
structure Malformed where
  index : Nat
  length : Option Nat
  deriving DecidableEq, Repr

inductive State where
  | between
  /-- `taken` octets are read and `due` more are to come, the next from `low` to `high`. -/
  | inside (value due taken : Nat) (low high : UInt8)
  deriving DecidableEq, Repr

inductive Outcome where
  | char (c : Char)
  | more (s : State)
  | refused (taken : Nat)
  deriving DecidableEq, Repr

/-- The first octet of a character decides its length and the range of the second. -/
def first (b : UInt8) : Outcome :=
  let v := b.toNat
  if v < 0x80 then .char (Char.ofNat v)
  else if v < 0xC2 then .refused 1
  else if v < 0xE0 then .more (.inside (v - 0xC0) 1 1 0x80 0xBF)
  else if v = 0xE0 then .more (.inside 0 2 1 0xA0 0xBF)
  else if v = 0xED then .more (.inside 0xD 2 1 0x80 0x9F)
  else if v < 0xF0 then .more (.inside (v - 0xE0) 2 1 0x80 0xBF)
  else if v = 0xF0 then .more (.inside 0 3 1 0x90 0xBF)
  else if v < 0xF4 then .more (.inside (v - 0xF0) 3 1 0x80 0xBF)
  else if v = 0xF4 then .more (.inside 4 3 1 0x80 0x8F)
  else .refused 1

def step : State → UInt8 → Outcome
  | .between, b => first b
  | .inside value due taken low high, b =>
    if low ≤ b ∧ b ≤ high then
      let v := value * 64 + (b.toNat - 0x80)
      if due ≤ 1 then .char (Char.ofNat v) else .more (.inside v (due - 1) (taken + 1) 0x80 0xBF)
    else .refused taken

/-- Decodes from state `s`, with the characters so far in reverse. `start` is the index of
the current character and `next` that of the next octet. -/
def decodeFrom (start next : Nat) (s : State) (done : List Char) :
    List UInt8 → Except Malformed (List Char)
  | [] => if s = .between then .ok done.reverse else .error ⟨start, none⟩
  | b :: rest =>
    match step s b with
    | .char c => decodeFrom (next + 1) (next + 1) .between (c :: done) rest
    | .more t => decodeFrom start (next + 1) t done rest
    | .refused taken => .error ⟨start, some taken⟩

def decodeChars (bytes : List UInt8) : Except Malformed (List Char) :=
  decodeFrom 0 0 .between [] bytes

def decode? (bytes : List UInt8) : Option String :=
  match decodeChars bytes with
  | .ok s => some (String.ofList s)
  | .error _ => none

example : decodeChars [0x74, 0xC3, 0xA9, 0xF0, 0x9F, 0x98, 0x80] = .ok ['t', 'é', '😀'] := rfl
example : decodeChars [0x61, 0xED, 0xA0, 0x80] = .error ⟨1, some 1⟩ := rfl
example : decodeChars [0x61, 0xE2, 0x82] = .error ⟨1, none⟩ := rfl

end RemoteDebug.Text.Utf8
