import RemoteDebug.Text.Blank
import RemoteDebug.Text.Numeral

/-! Spans of time, written in the largest unit that leaves a whole part.

The units are seconds, milliseconds, microseconds and nanoseconds; a fraction is
written without trailing zeros and left out when it is zero. -/
namespace RemoteDebug.Text

/-- The fraction `part / 10 ^ places` behind a point, or nothing for zero. -/
def fraction (part places : Nat) : List Char :=
  if part = 0 then []
  else
    let shown := digits part
    '.' :: dropEndWhile (· == '0') (List.replicate (places - shown.length) '0' ++ shown)

def amount (nanos places : Nat) : List Char :=
  digits (nanos / Nat.pow 10 places) ++ fraction (nanos % Nat.pow 10 places) places

/-- The text of a span of `nanos` nanoseconds. -/
def spanText (nanos : Nat) : String :=
  String.ofList <|
    if 1000000000 ≤ nanos then amount nanos 9 ++ ['s']
    else if 1000000 ≤ nanos then amount nanos 6 ++ ['m', 's']
    else if 1000 ≤ nanos then amount nanos 3 ++ ['µ', 's']
    else amount nanos 0 ++ ['n', 's']

example : spanText 3000500000 = "3.0005s" := by decide
example : spanText 1000 = "1µs" := by decide
example : spanText 0 = "0ns" := by decide

end RemoteDebug.Text
