/-! Decimal numerals: the digits of a number, and reading a number below a bound.

A numeral is an optional `+` and one or more ASCII digits; leading zeros are
allowed. Reading is exact for any number of digits, so a value at or above the
bound is refused and never wraps. -/
namespace RemoteDebug.Text

/-- The decimal digits of `n`, without leading zeros. -/
def digits (n : Nat) : List Char := Nat.toDigits 10 n

/-- The decimal digits of `n`, with a minus sign before a negative number. -/
def signedDigits : Int → List Char
  | .ofNat n => digits n
  | .negSucc n => '-' :: digits (n + 1)

/-- One or more ASCII digits. -/
def isNumeral (s : List Char) : Bool := !s.isEmpty && s.all Char.isDigit

/-- The text behind an optional plus sign. -/
def unsigned : List Char → List Char
  | '+' :: s => s
  | s => s

/-- The value of a numeral below `bound`. -/
def parseBelow (bound : Nat) (s : List Char) : Option Nat :=
  if isNumeral (unsigned s) then
    let n := Nat.ofDigitChars 10 (unsigned s) 0
    if n < bound then some n else none
  else none

def parseUInt32 (s : List Char) : Option UInt32 := (parseBelow UInt32.size s).map UInt32.ofNat

theorem parseBelow_lt {bound n : Nat} {s : List Char} (h : parseBelow bound s = some n) : n < bound := by
  unfold parseBelow at h
  split at h
  · simp only at h
    split at h
    · simp_all
    · simp at h
  · simp at h

theorem isDigit_of_mem_digits {n : Nat} {c : Char} (h : c ∈ digits n) : c.isDigit = true :=
  Nat.isDigit_of_mem_toDigits (by decide) (by decide) h

theorem isNumeral_digits (n : Nat) : isNumeral (digits n) = true := by
  simp only [isNumeral, Bool.and_eq_true, Bool.not_eq_eq_eq_not, Bool.not_true, List.isEmpty_eq_false_iff,
    List.all_eq_true]
  exact ⟨Nat.toDigits_ne_nil, fun c hc => isDigit_of_mem_digits hc⟩

theorem unsigned_digits (n : Nat) : unsigned (digits n) = digits n := by
  have h := isNumeral_digits n
  unfold unsigned
  split
  · next s hs => rw [hs] at h; simp [isNumeral, Char.isDigit] at h
  · rfl

/-- Writing a number and reading it gives the number back. -/
theorem parseBelow_digits {bound n : Nat} (h : n < bound) : parseBelow bound (digits n) = some n := by
  have hv : Nat.ofDigitChars 10 (digits n) 0 = n := Nat.ofDigitChars_ten_toDigits
  simp [parseBelow, unsigned_digits, isNumeral_digits, hv, h]

end RemoteDebug.Text
