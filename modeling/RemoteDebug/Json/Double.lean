/-! Finite doubles by sign, significand and exponent, and their arithmetic in exact
natural numbers.

A magnitude is `significand * 2 ^ exponent` with a significand below `2 ^ 53`; it
has 53 bits unless the exponent is the least one, `-1074`. Every operation
computes the exact ratio and rounds it once, to the nearest magnitude and to the
even significand between two. -/
namespace RemoteDebug.Json

structure Magnitude where
  significand : Nat
  exponent : Int
  deriving DecidableEq, Repr, Inhabited

structure Double where
  negative : Bool
  magnitude : Magnitude
  deriving DecidableEq, Repr, Inhabited

namespace Magnitude

def zero : Magnitude := ⟨0, -1074⟩

/-- The least significand with 53 bits. -/
def leastFull : Nat := 4503599627370496

def isZero (x : Magnitude) : Bool := x.significand == 0

/-- The exact value as a ratio of natural numbers. -/
def ratio (x : Magnitude) : Nat × Nat :=
  if 0 ≤ x.exponent then (x.significand * Nat.pow 2 x.exponent.toNat, 1)
  else (x.significand, Nat.pow 2 (-x.exponent).toNat)

/-- The quotient rounded to the nearest natural number, a half to the even one. -/
def roundDiv (num den : Nat) : Nat :=
  let q := num / den
  let r := num % den
  if 2 * r < den then q
  else if den < 2 * r then q + 1
  else if q % 2 = 0 then q else q + 1

/-- `num / den` divided by `2 ^ exponent`, as a ratio. -/
def scaled (num den : Nat) (exponent : Int) : Nat × Nat :=
  if 0 ≤ exponent then (num, den * Nat.pow 2 exponent.toNat) else (num * Nat.pow 2 (-exponent).toNat, den)

/-- The exponent at which the ratio has a significand of 53 bits, but not below `-1074`. -/
def exponentOf (num den : Nat) : Int :=
  let guess : Int := (num.log2 : Int) - (den.log2 : Int) - 52
  let (n, d) := scaled num den guess
  max (-1074) (if n / d < leastFull then guess - 1 else guess)

/-- The magnitude nearest to a ratio, unless it is out of range. -/
def ofRatio (num den : Nat) : Option Magnitude :=
  if num = 0 then some zero
  else
    let e := exponentOf num den
    let (n, d) := scaled num den e
    let m := roundDiv n d
    let x : Magnitude := if m = 2 * leastFull then ⟨leastFull, e + 1⟩ else ⟨m, e⟩
    if x.exponent ≤ 971 then some x else none

def mul (x y : Magnitude) : Option Magnitude :=
  ofRatio (x.ratio.1 * y.ratio.1) (x.ratio.2 * y.ratio.2)

def div (x y : Magnitude) : Option Magnitude :=
  ofRatio (x.ratio.1 * y.ratio.2) (x.ratio.2 * y.ratio.1)

/-- Ten to the power `k`, rounded. -/
def powerOfTen (k : Nat) : Magnitude := (ofRatio (Nat.pow 10 k) 1).getD zero

/-- A magnitude times a power of ten between `10 ^ -308` and `10 ^ 308`, by one rounded
multiplication or division with the rounded power. -/
def shift (x : Magnitude) (exponent : Int) : Option Magnitude :=
  if 0 ≤ exponent then x.mul (powerOfTen exponent.natAbs) else x.div (powerOfTen exponent.natAbs)

/-- A magnitude times any power of ten, by divisions through `10 ^ 308` as long as the exponent
is below `-308`. Every step rounds, so the result is not always the nearest double. A magnitude
below `2 ^ 64` is zero after the second step. -/
def shiftFar : (steps : Nat) → Magnitude → Int → Option Magnitude
  | 0, _, _ => some zero
  | steps + 1, x, exponent =>
    if exponent.natAbs ≤ 308 then x.shift exponent
    else if x.isZero then some zero
    else if 0 ≤ exponent then none
    else do shiftFar steps (← x.shift (-308)) (exponent + 308)

end Magnitude

namespace Double

/-- The double of a decimal with a sign, unless it is out of range. -/
def ofDecimal (negative : Bool) (significand : Nat) (exponent : Int) : Option Double := do
  let x ← Magnitude.ofRatio significand 1
  let y ← Magnitude.shiftFar 4 x exponent
  return ⟨negative, y⟩

/-- The double nearest to a natural number below `2 ^ 64`, with a sign. -/
def ofNat (negative : Bool) (n : Nat) : Double :=
  ⟨negative, (Magnitude.ofRatio n 1).getD .zero⟩

end Double

example : Double.ofDecimal false 90071992547409930 (-1) = some ⟨false, 4503599627370497, 1⟩ := by decide +kernel
example : Double.ofDecimal false 49 (-325) = some ⟨false, 1, -1074⟩ := by decide +kernel

end RemoteDebug.Json
