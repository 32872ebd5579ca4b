/-
Scriptlet.Decimal.Shortest — the fewest digits that read back.

A decimal stands for `digits · 10^exponent`, and reading it gives the nearest
double. Among all decimals that read as a given double, the shortest one has the
fewest digits and, among those, is nearest to the double; from the middle it goes
to the even digit. The search tries grids of one, two, … seventeen digits and on
each the two neighbours of the value. Should none of them read back, the exact
value in decimal is the answer, so that the answer always reads back.

  §1 Decimals.
  §2 The neighbours of a value on a decimal grid.
  §3 The search.
-/
import Scriptlet.Double.Rounding

namespace Scriptlet

/-! ## §1 Decimals -/

/-- The number `digits · 10^exponent`. -/
structure Decimal where
  /-- The digits as one natural number. -/
  digits : Nat
  /-- The power of ten that the last digit counts. -/
  exponent : Int
deriving DecidableEq, Repr, Inhabited

namespace Decimal

/-- The double nearest to a decimal. -/
def toDouble (d : Decimal) : Double := Double.ofDecimal d.digits d.exponent

/-- How many digits a natural number has in decimal. -/
def digitCount (n : Nat) : Nat := (Nat.toDigits 10 n).length

/-! ## §2 The neighbours of a value on a decimal grid

Values are positive and counted in units of 2^-1074. -/

/-- The power of ten of a value's first digit: from one on it is told by the whole part, below by
the value moved up 324 places. No double is below 10^-324. -/
def leadingPower (units : Nat) : Int :=
  if Nat.pow 2 1074 ≤ units then (digitCount (units / Nat.pow 2 1074) : Int) - 1
  else (digitCount (units * Nat.pow 10 324 / Nat.pow 2 1074) : Int) - 325

/-- A value divided by `10^k`, as numerator and denominator. -/
def overPower (units : Nat) : Int → Nat × Nat
  | .ofNat k => (units, Nat.pow 2 1074 * Nat.pow 10 k)
  | .negSucc k => (units * Nat.pow 10 (k + 1), Nat.pow 2 1074)

/-- The neighbour of a value on the grid of `10^k` that reads as the double with magnitude `m`: of
two the nearer, and from the middle the even one. -/
def neighbour? (m : Nat) (k : Int) : Option Decimal :=
  let (num, den) := overPower (Double.unitsOf m) k
  let below : Decimal := ⟨num / den, k⟩
  let above : Decimal := ⟨num / den + 1, k⟩
  let reads (d : Decimal) : Bool := d.toDouble == Double.ofMagnitude false m
  match reads below, reads above with
  | false, false => none
  | true, false => some below
  | false, true => some above
  | true, true => some ⟨Double.roundDiv num den, k⟩

/-! ## §3 The search -/

/-- The value with magnitude `m` written out in full: 2^-1074 is 5^1074 · 10^-1074. -/
def exact (m : Nat) : Decimal := ⟨Double.unitsOf m * Nat.pow 5 1074, -1074⟩

/-- The shortest decimal that reads as the finite positive double with magnitude `m`. -/
def shortest (m : Nat) : Decimal :=
  let lead := leadingPower (Double.unitsOf m)
  ((List.range 17).findSome? fun n : Nat => neighbour? m (lead - n)).getD (exact m)

/-- A neighbour that was taken reads back. -/
theorem toDouble_of_neighbour? {m : Nat} {k : Int} {d : Decimal} (h : neighbour? m k = some d) :
    d.toDouble = Double.ofMagnitude false m := by
  unfold neighbour? at h
  generalize overPower (Double.unitsOf m) k = q at h
  obtain ⟨num, den⟩ := q
  simp only at h
  split at h
  · cases h
  · next hb _ => cases h; exact eq_of_beq hb
  · next _ ha => cases h; exact eq_of_beq ha
  · next hb ha =>
    cases h
    simp only [Double.roundDiv]
    split
    · exact eq_of_beq hb
    · exact eq_of_beq ha
    · rcases Nat.mod_two_eq_zero_or_one (num / den) with even | odd
      · rw [even]; exact eq_of_beq hb
      · rw [odd]; exact eq_of_beq ha

end Decimal

end Scriptlet
