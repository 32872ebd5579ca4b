/-
Scriptlet.Double.Basic — the numbers of the language: IEEE 754 doubles.

A double is its bit pattern. Classification and comparison are stated on the
pattern: below the sign bit the patterns are ordered as the values they stand
for, so a sign and a natural number decide everything. Sums, differences,
products and quotients are those of the machine, rounded to nearest with ties to
even. Division by zero is no error: it gives an infinity or the NaN.

  §1 Patterns    — sign, magnitude, the special values, the exact value.
  §2 Comparison  — IEEE equality and order.
  §3 Arithmetic.
-/
namespace Scriptlet

/-! ## §1 Patterns -/

/-- An IEEE 754 double, given by its bit pattern. -/
structure Double where
  /-- The pattern: sign bit, eleven exponent bits, fifty-two fraction bits. -/
  bits : UInt64
deriving DecidableEq, Repr, Inhabited

namespace Double

/-- The pattern without its sign bit. -/
def magnitude (x : Double) : Nat := x.bits.toNat % Nat.pow 2 63

/-- Is the sign bit set? -/
def isNegative (x : Double) : Bool := Nat.pow 2 63 ≤ x.bits.toNat

/-- The double with the given sign and magnitude. -/
def ofMagnitude (negative : Bool) (m : Nat) : Double :=
  ⟨UInt64.ofNat ((if negative then Nat.pow 2 63 else 0) + m)⟩

/-- The magnitude of the two infinities; the magnitudes above it belong to NaNs. -/
def infinite : Nat := 0x7FF0000000000000

/-- A NaN stands for no number. -/
def isNaN (x : Double) : Bool := infinite < x.magnitude

/-- One of the two infinities. -/
def isInfinite (x : Double) : Bool := x.magnitude == infinite

/-- One of the two zeros. -/
def isZero (x : Double) : Bool := x.magnitude == 0

/-- The quiet NaN that operations without a result give. -/
def nan : Double := ⟨0x7FF8000000000000⟩

/-- The absolute value of a finite double with magnitude `m`, counted in units of 2^-1074, the
least positive double. The exponent field shifts the fraction, to which all but the least field
value add a leading bit. -/
def unitsOf (m : Nat) : Nat :=
  if m / Nat.pow 2 52 = 0 then m
  else (Nat.pow 2 52 + m % Nat.pow 2 52) * Nat.pow 2 (m / Nat.pow 2 52 - 1)

/-- The absolute value of a finite double in units of 2^-1074. -/
def units (x : Double) : Nat := unitsOf x.magnitude

/-! ## §2 Comparison -/

/-- The place of a double among all that are not NaN. The two zeros share one place. -/
def place (x : Double) : Int :=
  if x.isNegative then -(x.magnitude : Int) else x.magnitude

/-- IEEE equality: a NaN equals nothing, and the zeros equal each other. -/
def numEq (x y : Double) : Bool :=
  !x.isNaN && !y.isNaN && x.place == y.place

/-- IEEE order: a NaN is below nothing. -/
def lt (x y : Double) : Bool :=
  !x.isNaN && !y.isNaN && x.place < y.place

/-- IEEE order or equality: a NaN is comparable with nothing. -/
def le (x y : Double) : Bool :=
  !x.isNaN && !y.isNaN && x.place ≤ y.place

/-- Equality of values: IEEE equality, except that all NaNs are equal to one another. -/
def same (x y : Double) : Bool :=
  (x.isNaN && y.isNaN) || x.numEq y

/-! ## §3 Arithmetic -/

/-- The machine number with the pattern of a double. -/
def toFloat (x : Double) : Float := Float.ofBits x.bits

/-- The double with the pattern of a machine number. -/
def ofFloat (f : Float) : Double := ⟨f.toBits⟩

/-- The double with the other sign. -/
def neg (x : Double) : Double := ofMagnitude (!x.isNegative) x.magnitude

def add (x y : Double) : Double := ofFloat (x.toFloat + y.toFloat)

def sub (x y : Double) : Double := ofFloat (x.toFloat - y.toFloat)

def mul (x y : Double) : Double := ofFloat (x.toFloat * y.toFloat)

/-- The quotient of the machine, which divides by no zero. -/
def quotient (x y : Double) (_ : y.isZero ≠ true) : Double := ofFloat (x.toFloat / y.toFloat)

/-- The quotient. By a zero it is the NaN for a zero or a NaN, and otherwise the infinity whose
sign is the product of the two signs. -/
def div (x y : Double) : Double :=
  if h : y.isZero then
    if x.isZero || x.isNaN then nan else ofMagnitude (x.isNegative != y.isNegative) infinite
  else x.quotient y h

/-! ### Laws of equality -/

@[simp] theorem same_refl (x : Double) : x.same x = true := by
  cases h : x.isNaN <;> simp [same, numEq, h]

theorem same_comm (x y : Double) : x.same y = y.same x := by
  simp only [same, numEq, Bool.and_comm, Bool.and_assoc]
  rw [show (x.place == y.place) = (y.place == x.place) from Bool.beq_comm]

end Double

end Scriptlet
