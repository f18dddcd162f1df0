import RemoteDebug.Text.Visible

/-! Quoted text, as messages show what they were given.

A text stands between double quotes. The quote and the backslash are escaped, the
usual controls have short escapes, and any other character that is not visible
is written by its code point in lower-case hexadecimal. -/
namespace RemoteDebug.Text

/-- A character by its code point: `\u`, then the hexadecimal digits in braces. -/
def codePoint (c : Char) : List Char :=
  ['\\', 'u', '\x7b'] ++ Nat.toDigits 16 c.toNat ++ ['\x7d']

def escape (c : Char) : List Char :=
  if c = '\x00' then ['\\', '0']
  else if c = '\t' then ['\\', 't']
  else if c = '\r' then ['\\', 'r']
  else if c = '\n' then ['\\', 'n']
  else if c = '"' then ['\\', '"']
  else if c = '\\' then ['\\', '\\']
  else if isVisible c then [c]
  else codePoint c

def quote (s : String) : String := String.ofList ('"' :: s.toList.flatMap escape ++ ['"'])

end RemoteDebug.Text
