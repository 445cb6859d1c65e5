import Mathlib.Data.Int.Log
import Mathlib.Data.Rat.Floor

/-!
# Double-precision arithmetic on positive numbers

IEEE 754 doubles as rational numbers: an operation computes the exact result and rounds it to 53
significant bits, ties to even.  Only non-negative results in the normal range are covered, so
there is no overflow, underflow, infinity or NaN.
-/

namespace Binary64

/-- The integer nearest to `q`, ties to even. -/
def roundHalfEven (q : ℚ) : ℤ :=
  if q - ⌊q⌋ < 1 / 2 then ⌊q⌋
  else if 1 / 2 < q - ⌊q⌋ then ⌊q⌋ + 1
  else if ⌊q⌋ % 2 = 0 then ⌊q⌋ else ⌊q⌋ + 1

/-- The exponent of the last of the 53 significant bits of `q`. -/
def lastBit (q : ℚ) : ℤ := Int.log 2 q - 52

/-- The double nearest to `q`. -/
def round (q : ℚ) : ℚ := if q = 0 then 0 else roundHalfEven (q / 2 ^ lastBit q) * 2 ^ lastBit q

/-- `n as f64`. -/
def ofNat (n : ℕ) : ℚ := round n

/-- `a / b`. -/
def div (a b : ℚ) : ℚ := round (a / b)

/-- `a * b`. -/
def mul (a b : ℚ) : ℚ := round (a * b)

example : ofNat (2 ^ 53 + 1) = 2 ^ 53 := by decide +kernel

end Binary64
