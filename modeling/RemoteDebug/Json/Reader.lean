import RemoteDebug.Json.Value
import RemoteDebug.Text.Utf8

/-! Reading a JSON value from octets.

The grammar is that of the format, with blanks only the space, the tab, the line
feed and the carriage return. Arrays and objects may nest 127 deep. A string is
scanned to its closing quote first; only then must its octets be UTF-8. A refusal
is `endOfText` when the octets end too early and `malformed` for everything else.
The reader of a part gives its value and the octets behind it. -/
namespace RemoteDebug.Json

inductive Fault where
  | endOfText
  | malformed
  deriving DecidableEq, Repr

abbrev Octets := List UInt8

namespace Reader

abbrev Result := Except Fault

def isSpace (b : UInt8) : Bool := b == 0x20 || b == 0x0A || b == 0x09 || b == 0x0D

def isDigit (b : UInt8) : Bool := 0x30 ≤ b && b ≤ 0x39

def digitValue (b : UInt8) : Nat := b.toNat - 0x30

def skipSpaces : Octets → Octets
  | [] => []
  | b :: rest => if isSpace b then skipSpaces rest else b :: rest

/-- Reads the octets of a literal name. -/
def literal (v : Json) : Octets → Octets → Result (Json × Octets)
  | [], input => .ok (v, input)
  | _ :: _, [] => .error .endOfText
  | b :: name, c :: input => if b = c then literal v name input else .error .malformed

/-! ### Strings -/

def hexValue (b : UInt8) : Option Nat :=
  if 0x30 ≤ b && b ≤ 0x39 then some (b.toNat - 0x30)
  else if 0x41 ≤ b && b ≤ 0x46 then some (b.toNat - 0x37)
  else if 0x61 ≤ b && b ≤ 0x66 then some (b.toNat - 0x57)
  else none

/-- Four hexadecimal digits. Fewer than four octets are an early end, whatever they are. -/
def hex4 : Octets → Result (Nat × Octets)
  | a :: b :: c :: d :: rest =>
    match hexValue a, hexValue b, hexValue c, hexValue d with
    | some a, some b, some c, some d => .ok (((a * 16 + b) * 16 + c) * 16 + d, rest)
    | _, _, _, _ => .error .malformed
  | _ => .error .endOfText

/-- The code point behind `\u`: one unit, or a leading and a trailing surrogate. -/
def codePoint (input : Octets) : Result (Nat × Octets) := do
  let (lead, rest) ← hex4 input
  if 0xDC00 ≤ lead ∧ lead ≤ 0xDFFF then .error .malformed
  else if lead < 0xD800 ∨ 0xDBFF < lead then return (lead, rest)
  else
    match rest with
    | [] => .error .endOfText
    | b :: rest =>
      if b ≠ 0x5C then .error .malformed
      else
        match rest with
        | [] => .error .endOfText
        | c :: rest =>
          if c ≠ 0x75 then .error .malformed
          else
            let (trail, rest) ← hex4 rest
            if trail < 0xDC00 ∨ 0xDFFF < trail then .error .malformed
            else return ((lead - 0xD800) * 0x400 + (trail - 0xDC00) + 0x10000, rest)

/-- The octets that an escape stands for; the backslash is already read. -/
def escaped : Octets → Result (Octets × Octets)
  | [] => .error .endOfText
  | b :: rest =>
    if b = 0x22 ∨ b = 0x5C ∨ b = 0x2F then .ok ([b], rest)
    else if b = 0x62 then .ok ([0x08], rest)
    else if b = 0x66 then .ok ([0x0C], rest)
    else if b = 0x6E then .ok ([0x0A], rest)
    else if b = 0x72 then .ok ([0x0D], rest)
    else if b = 0x74 then .ok ([0x09], rest)
    else if b = 0x75 then do
      let (n, rest) ← codePoint rest
      return (String.utf8EncodeChar (Char.ofNat n), rest)
    else .error .malformed

/-- The octets of a string up to its closing quote, escapes resolved; `done` holds those so far
in reverse. The number bounds the steps: every step reads an octet. -/
def stringOctets : Nat → Octets → Octets → Result (Octets × Octets)
  | _, _, [] => .error .endOfText
  | 0, _, _ :: _ => .error .endOfText
  | steps + 1, done, b :: rest =>
    if b = 0x22 then .ok (done.reverse, rest)
    else if b = 0x5C then
      match escaped rest with
      | .ok (octets, rest) => stringOctets steps (octets.reverse ++ done) rest
      | .error e => .error e
    else if b < 0x20 then .error .malformed
    else stringOctets steps (b :: done) rest

/-- A string; the opening quote is already read. -/
def string (input : Octets) : Result (String × Octets) := do
  let (octets, rest) ← stringOctets input.length [] input
  match Text.Utf8.decode? octets with
  | some s => return (s, rest)
  | none => .error .malformed

/-! ### Numbers -/

/-- The digits taken into a significand below `2 ^ 64`, and how many were read behind the
first one that does not fit; those count as zeros before the point and as nothing after it. -/
structure Digits where
  significand : Nat
  taken : Nat
  dropped : Nat

/-- The digits in front of the input, added to `d`. -/
def digits (d : Digits) : Octets → Digits × Octets
  | [] => (d, [])
  | b :: rest =>
    if isDigit b then
      let n := d.significand * 10 + digitValue b
      if d.dropped = 0 ∧ n < UInt64.size then digits { d with significand := n, taken := d.taken + 1 } rest
      else digits { d with dropped := d.dropped + 1 } rest
    else (d, b :: rest)

/-- The value of all digits in front of the input. -/
def exponentDigits (n : Nat) : Octets → Nat × Octets
  | [] => (n, [])
  | b :: rest => if isDigit b then exponentDigits (n * 10 + digitValue b) rest else (n, b :: rest)

def decimal (negative : Bool) (significand : Nat) (exponent : Int) (rest : Octets) : Result (Json × Octets) :=
  match Double.ofDecimal negative significand exponent with
  | some x => .ok (.double x, rest)
  | none => .error .malformed

/-- An exponent behind its letter: an optional sign and one or more digits. -/
def exponentPart (negative : Bool) (significand : Nat) (exponent : Int) (input : Octets) : Result (Json × Octets) :=
  let (down, input) := match input with
    | 0x2B :: rest => (false, rest)
    | 0x2D :: rest => (true, rest)
    | rest => (false, rest)
  match input with
  | [] => .error .endOfText
  | b :: rest =>
    if isDigit b then
      let (n, rest) := exponentDigits (digitValue b) rest
      decimal negative significand (if down then exponent - n else exponent + n) rest
    else .error .malformed

/-- A fraction behind its point: one or more digits, then perhaps an exponent. -/
def fractionPart (negative : Bool) (significand : Nat) (exponent : Int) (input : Octets) : Result (Json × Octets) :=
  match input with
  | [] => .error .endOfText
  | b :: _ =>
    if isDigit b then
      let (d, rest) := digits ⟨significand, 0, 0⟩ input
      let exponent := exponent - d.taken
      match rest with
      | c :: rest =>
        if c = 0x65 ∨ c = 0x45 then exponentPart negative d.significand exponent rest
        else decimal negative d.significand exponent (c :: rest)
      | [] => decimal negative d.significand exponent []
    else .error .malformed

/-- A whole number without fraction and exponent: exact where the range allows it. Negative zero
is a double. -/
def whole (negative : Bool) (n : Nat) : Json :=
  match Integer.ofInt? (if negative then -(n : Int) else n) with
  | some i => if negative ∧ n = 0 then .double (.ofNat true 0) else .int i
  | none => .double (.ofNat negative n)

/-- What follows the whole part of a number. -/
def afterWhole (negative : Bool) (d : Digits) (input : Octets) : Result (Json × Octets) :=
  let plain : Result (Json × Octets) :=
    if d.dropped = 0 then .ok (whole negative d.significand, input)
    else decimal negative d.significand d.dropped input
  match input with
  | [] => plain
  | b :: rest =>
    if b = 0x2E then fractionPart negative d.significand d.dropped rest
    else if b = 0x65 ∨ b = 0x45 then exponentPart negative d.significand d.dropped rest
    else plain

/-- A number behind its sign: a zero, or digits that do not start with one. -/
def number (negative : Bool) : Octets → Result (Json × Octets)
  | [] => .error .endOfText
  | b :: rest =>
    if b = 0x30 then
      match rest with
      | c :: _ => if isDigit c then .error .malformed else afterWhole negative ⟨0, 1, 0⟩ rest
      | [] => afterWhole negative ⟨0, 1, 0⟩ []
    else if isDigit b then
      let (d, rest) := digits ⟨0, 0, 0⟩ (b :: rest)
      afterWhole negative d rest
    else .error .malformed

/-! ### Arrays and objects -/

section Containers
variable (item : Octets → Result (Json × Octets))

/-- The items behind the first one; `done` holds those so far in reverse. -/
def moreItems : Nat → List Json → Octets → Result (Json × Octets)
  | 0, _, _ => .error .endOfText
  | steps + 1, done, input =>
    match skipSpaces input with
    | [] => .error .endOfText
    | b :: rest =>
      if b = 0x5D then .ok (.arr done.reverse, rest)
      else if b = 0x2C then
        match skipSpaces rest with
        | [] => .error .endOfText
        | c :: rest =>
          if c = 0x5D then .error .malformed
          else
            match item (c :: rest) with
            | .ok (v, rest) => moreItems steps (v :: done) rest
            | .error e => .error e
      else .error .malformed

/-- An array behind its opening bracket. -/
def items (input : Octets) : Result (Json × Octets) :=
  match skipSpaces input with
  | [] => .error .endOfText
  | b :: rest =>
    if b = 0x5D then .ok (.arr [], rest)
    else
      match item (b :: rest) with
      | .ok (v, rest) => moreItems item (rest.length + 1) [v] rest
      | .error e => .error e

/-- A field behind the opening quote of its key. -/
def field (input : Octets) : Result ((String × Json) × Octets) := do
  let (key, rest) ← string input
  match skipSpaces rest with
  | [] => .error .endOfText
  | b :: rest =>
    if b = 0x3A then
      let (v, rest) ← item rest
      return ((key, v), rest)
    else .error .malformed

/-- The fields behind the first one, put among those so far. -/
def moreFields : Nat → List (String × Json) → Octets → Result (Json × Octets)
  | 0, _, _ => .error .endOfText
  | steps + 1, done, input =>
    match skipSpaces input with
    | [] => .error .endOfText
    | b :: rest =>
      if b = 0x7D then .ok (.obj done, rest)
      else if b = 0x2C then
        match skipSpaces rest with
        | [] => .error .endOfText
        | c :: rest =>
          if c = 0x22 then
            match field item rest with
            | .ok ((k, v), rest) => moreFields steps (insert k v done) rest
            | .error e => .error e
          else .error .malformed
      else .error .malformed

/-- An object behind its opening brace. -/
def fields (input : Octets) : Result (Json × Octets) :=
  match skipSpaces input with
  | [] => .error .endOfText
  | b :: rest =>
    if b = 0x7D then .ok (.obj [], rest)
    else if b = 0x22 then
      match field item rest with
      | .ok ((k, v), rest) => moreFields item (rest.length + 1) [(k, v)] rest
      | .error e => .error e
    else .error .malformed

end Containers

/-- A value with blanks in front, inside which arrays and objects nest at most `depth` deep. -/
def value : (depth : Nat) → Octets → Result (Json × Octets)
  | depth, input =>
    match skipSpaces input with
    | [] => .error .endOfText
    | b :: rest =>
      if b = 0x6E then literal .null [0x75, 0x6C, 0x6C] rest
      else if b = 0x74 then literal (.bool true) [0x72, 0x75, 0x65] rest
      else if b = 0x66 then literal (.bool false) [0x61, 0x6C, 0x73, 0x65] rest
      else if b = 0x2D then number true rest
      else if isDigit b then number false (b :: rest)
      else if b = 0x22 then do
        let (s, rest) ← string rest
        return (.str s, rest)
      else if b = 0x5B then
        match depth with
        | 0 => .error .malformed
        | depth + 1 => items (value depth) rest
      else if b = 0x7B then
        match depth with
        | 0 => .error .malformed
        | depth + 1 => fields (value depth) rest
      else .error .malformed

end Reader

/-- How deep arrays and objects may nest. -/
def depthLimit : Nat := 127

/-- The value of a whole text. -/
def parse (input : Octets) : Except Fault Json := do
  let (v, rest) ← Reader.value depthLimit input
  if (Reader.skipSpaces rest).isEmpty then return v else .error .malformed

end RemoteDebug.Json
