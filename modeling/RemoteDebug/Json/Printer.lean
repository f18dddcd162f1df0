import RemoteDebug.Json.Shortest
import RemoteDebug.Json.Value

/-! The text of a JSON value: no blanks, fields in their order, and in strings only the
quote, the backslash and the controls below the space escaped. -/
namespace RemoteDebug.Json

/-- The escape of a character inside a string; most characters stand for themselves. -/
def escape (c : Char) : List Char :=
  if c = '"' then ['\\', '"']
  else if c = '\\' then ['\\', '\\']
  else if c = '\x08' then ['\\', 'b']
  else if c = '\x0c' then ['\\', 'f']
  else if c = '\n' then ['\\', 'n']
  else if c = '\r' then ['\\', 'r']
  else if c = '\t' then ['\\', 't']
  else if c.toNat < 0x20 then
    ['\\', 'u', '0', '0', Nat.digitChar (c.toNat / 16), Nat.digitChar (c.toNat % 16)]
  else [c]

def stringText (s : String) : List Char := '"' :: s.toList.flatMap escape ++ ['"']

mutual

/-- The characters of a value. -/
def chars : Json → List Char
  | .null => ['n', 'u', 'l', 'l']
  | .bool true => ['t', 'r', 'u', 'e']
  | .bool false => ['f', 'a', 'l', 's', 'e']
  | .int n => Text.signedDigits n.val
  | .double x => x.text
  | .str s => stringText s
  | .arr [] => ['[', ']']
  | .arr (v :: rest) => '[' :: v.chars ++ charsItems rest
  | .obj [] => ['\x7b', '\x7d']
  | .obj ((k, v) :: rest) => '\x7b' :: stringText k ++ ':' :: v.chars ++ charsFields rest

/-- The items behind the first one, and the closing bracket. -/
def charsItems : List Json → List Char
  | [] => [']']
  | v :: rest => ',' :: v.chars ++ charsItems rest

/-- The fields behind the first one, and the closing brace. -/
def charsFields : List (String × Json) → List Char
  | [] => ['\x7d']
  | (k, v) :: rest => ',' :: stringText k ++ ':' :: v.chars ++ charsFields rest

end

def text (v : Json) : String := String.ofList v.chars

end RemoteDebug.Json
