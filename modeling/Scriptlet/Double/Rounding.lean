/-
Scriptlet.Double.Rounding — from exact quotients and decimals to doubles.

A positive rational is rounded to the nearest double, and from the middle
between two doubles to the one whose last bit is zero. All of it is arithmetic
of natural numbers: the rational is counted in units of 2^-1074, the count is
divided by the power of two that leaves 53 bits of it, and the rounded quotient
is the magnitude up to the exponent field. A carry out of the 53 bits moves into
the exponent field, where it belongs. What reaches the magnitude of infinity is
infinite.

  §1 Rounded division.
  §2 Quotients and decimals.
-/
import Scriptlet.Double.Basic

namespace Scriptlet.Double

/-! ## §1 Rounded division -/

/-- The natural number nearest to a quotient; from the middle between two, the even one. -/
def roundDiv (num den : Nat) : Nat :=
  match compare (2 * (num % den)) den with
  | .lt => num / den
  | .gt => num / den + 1
  | .eq => num / den + num / den % 2

/-- A quotient that is a natural number is not changed. -/
theorem roundDiv_mul_right (n : Nat) {den : Nat} (pos : 0 < den) : roundDiv (n * den) den = n := by
  have lt : compare (2 * (n * den % den)) den = .lt := by
    rw [Nat.mul_mod_left, Nat.mul_zero]
    exact Nat.compare_eq_lt.2 pos
  rw [roundDiv, lt]
  exact Nat.mul_div_cancel n pos

/-! ## §2 Quotients and decimals -/

/-- The magnitude of the double nearest to `num / den`. -/
def magnitudeOfRatio (num den : Nat) : Nat :=
  let scaled := num * Nat.pow 2 1074
  let shift := Nat.log2 (scaled / den) - 52
  min infinite (shift * Nat.pow 2 52 + roundDiv scaled (den * Nat.pow 2 shift))

/-- The double nearest to `digits · 10^exponent`. -/
def ofDecimal (digits : Nat) (exponent : Int) : Double :=
  ofMagnitude false <|
    match exponent with
    | .ofNat e => magnitudeOfRatio (digits * Nat.pow 10 e) 1
    | .negSucc e => magnitudeOfRatio digits (Nat.pow 10 (e + 1))

end Scriptlet.Double
