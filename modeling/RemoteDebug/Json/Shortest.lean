import RemoteDebug.Json.Double
import RemoteDebug.Text.Blank
import RemoteDebug.Text.Numeral

/-! The text of a double: the fewest decimal digits that read back, and of those the
nearest.

A double is what is read from any decimal in the interval between the midpoints
to its two neighbours, ends included when its significand is even. With `n`
digits the candidates are the two points of the decimal grid around the value;
the first `n` with a candidate in the interval decides. -/
namespace RemoteDebug.Json

/-- A positive decimal: its digits as one number, and the power of ten of the first digit. -/
structure Decimal where
  digits : Nat
  exponent : Int
  deriving DecidableEq, Repr

namespace Magnitude

/-- The interval of ratios that round to a positive magnitude, over one denominator:
lower end, upper end, value, denominator. -/
def interval (x : Magnitude) : Nat × Nat × Nat × Nat :=
  let (n, d) := x.ratio
  -- Four times the value, so that a half and a quarter of a unit are whole numbers.
  let unit := n / x.significand
  let below := if x.significand = leastFull ∧ x.exponent ≠ -1074 then unit else 2 * unit
  (4 * n - below, 4 * n + 2 * unit, 4 * n, 4 * d)

/-- The power of ten of the first digit of a positive ratio. -/
def leadingExponent (num den : Nat) : Int :=
  if den ≤ num then ((Text.digits (num / den)).length : Int) - 1
  else
    let k := (Text.digits (den / num)).length - 1
    if den ≤ num * Nat.pow 10 k then -(k : Int) else -(k : Int) - 1

/-- The ratio divided by `10 ^ e`. -/
def scaledTen (num den : Nat) (e : Int) : Nat × Nat :=
  if 0 ≤ e then (num, den * Nat.pow 10 e.toNat) else (num * Nat.pow 10 (-e).toNat, den)

/-- The grid point with step `10 ^ e` that lies in the interval and is nearest to the value. -/
def onGrid? (x : Magnitude) (e : Int) : Option Nat :=
  let (low, high, value, den) := x.interval
  let (v, d) := scaledTen value den e
  let (l, _) := scaledTen low den e
  let (h, _) := scaledTen high den e
  let closed := x.significand % 2 = 0
  let inside (k : Nat) : Bool := if closed then l ≤ k * d && k * d ≤ h else l < k * d && k * d < h
  let down := v / d
  let up := down + 1
  let preferUp := decide (d < 2 * (v % d)) || (decide (2 * (v % d) = d) && down % 2 == 1)
  match inside down && down != 0, inside up with
  | true, true => some (if preferUp then up else down)
  | true, false => some down
  | false, true => some up
  | false, false => none

/-- Drops trailing zeros of the digits. -/
def trimZeros (fuel n : Nat) : Nat :=
  match fuel with
  | 0 => n
  | fuel + 1 => if n % 10 = 0 ∧ n ≠ 0 then trimZeros fuel (n / 10) else n

/-- Tries `count` digits, then one more, at most `fuel` times. -/
def shortestFrom (x : Magnitude) (first : Int) : (fuel count : Nat) → Decimal
  | 0, _ => ⟨0, 0⟩
  | fuel + 1, count =>
    let e := first - (count : Int) + 1
    match onGrid? x e with
    | some k => ⟨trimZeros 20 k, e + ((Text.digits k).length : Int) - 1⟩
    | none => shortestFrom x first fuel (count + 1)

/-- The shortest decimal of a positive magnitude: seventeen digits always suffice. -/
def shortest (x : Magnitude) : Decimal :=
  shortestFrom x (leadingExponent x.ratio.1 x.ratio.2) 17 1

end Magnitude

/-- Positional between `10 ^ -5` and `10 ^ 16`, always with a point, and else with an exponent
that has a sign but no leading zeros. -/
def Decimal.text (x : Decimal) : List Char :=
  let shown := Text.digits x.digits
  let places := x.exponent.toNat + 1
  if 0 ≤ x.exponent ∧ x.exponent ≤ 15 then
    if shown.length ≤ places then shown ++ List.replicate (places - shown.length) '0' ++ ['.', '0']
    else shown.take places ++ '.' :: shown.drop places
  else if -5 ≤ x.exponent ∧ x.exponent < 0 then
    ['0', '.'] ++ List.replicate ((-x.exponent).toNat - 1) '0' ++ shown
  else
    let mantissa := match shown with
      | [] => []
      | [d] => [d]
      | d :: rest => d :: '.' :: rest
    mantissa ++ 'e' :: (if x.exponent < 0 then '-' else '+') :: Text.digits x.exponent.natAbs

def Double.text (x : Double) : List Char :=
  (if x.negative then ['-'] else []) ++
    if x.magnitude.isZero then ['0', '.', '0'] else x.magnitude.shortest.text

end RemoteDebug.Json
