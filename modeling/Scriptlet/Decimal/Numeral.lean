/-
Scriptlet.Decimal.Numeral — how numbers are written.

The digits are those of the shortest decimal that reads back. What is left to
decide is where the point stands and when an exponent is written. Tokens shown
for inspection have the form with the widest limits. Programs see two others,
which are made from it: the full form always has a fraction and takes to an
exponent earlier, the brief form drops a final `.0`. To move the point, the full
form reads the digits off the text for inspection, with the zeros that pad them
there.

  §1 Significant digits and their placing.
  §2 The form for inspection.
  §3 Digits read off a text.
  §4 The full and the brief form.
-/
import Scriptlet.Decimal.Shortest

namespace Scriptlet

/-! ## §1 Significant digits and their placing -/

/-- Significant digits: the first one counts `10^lead`. -/
structure Numeral where
  /-- The digits, without zeros at the end. -/
  digits : List Char
  /-- The power of ten of the first digit. -/
  lead : Int
deriving DecidableEq, Repr

namespace Numeral

/-- The significant digits of a decimal. -/
def ofDecimal (d : Decimal) : Numeral :=
  let all := Nat.toDigits 10 d.digits
  ⟨(all.reverse.dropWhile (· == '0')).reverse, d.exponent + (all.length : Int) - 1⟩

/-- The significant digits of a positive finite double with magnitude `m`. -/
def ofMagnitude (m : Nat) : Numeral := ofDecimal (Decimal.shortest m)

/-- The digits behind the point; there is at least one. -/
def fraction (ds : List Char) : List Char := if ds.isEmpty then ['0'] else ds

/-- The digits with a point among them, zeros filling the gap on either side. -/
def positional (n : Numeral) : List Char :=
  match n.lead with
  | .ofNat k =>
    n.digits.take (k + 1) ++ List.replicate (k + 1 - n.digits.length) '0' ++
      '.' :: fraction (n.digits.drop (k + 1))
  | .negSucc k => '0' :: '.' :: (List.replicate k '0' ++ n.digits)

/-- An integer in decimal digits. -/
def integer : Int → List Char
  | .ofNat k => Nat.toDigits 10 k
  | .negSucc k => '-' :: Nat.toDigits 10 (k + 1)

/-- One digit, the point, the other digits, and the power of ten behind an `E`. -/
def scientific (n : Numeral) : List Char :=
  n.digits.take 1 ++ '.' :: fraction (n.digits.drop 1) ++ 'E' :: integer n.lead

/-- As `scientific` for inspection: the point only before further digits, and the power behind an
`e` with its sign and at least two digits. -/
def scientificSigned (n : Numeral) : List Char :=
  let point := if n.digits.length ≤ 1 then [] else ['.']
  let power := Nat.toDigits 10 n.lead.natAbs
  n.digits.take 1 ++ point ++ n.digits.drop 1 ++
    'e' :: (if n.lead < 0 then '-' else '+') :: (List.replicate (2 - power.length) '0' ++ power)

/-- The digits as they are written for inspection: with the point in place from 10^-4 up to but not
including 10^16, and with an exponent outside. -/
def inspected (n : Numeral) : List Char :=
  if -4 ≤ n.lead ∧ n.lead < 16 then n.positional else n.scientificSigned

end Numeral

/-! ## §2 The form for inspection -/

namespace Double

/-- A sign for the negative doubles, in front of what is written for the magnitude. -/
def signed (x : Double) (body : List Char) : List Char :=
  if x.isNegative then '-' :: body else body

/-- The form for inspection, with `inf` and `nan` in words. -/
def inspectForm (x : Double) : List Char :=
  if x.isNaN then "nan".toList
  else if x.isInfinite then x.signed "inf".toList
  else if x.isZero then x.signed "0.0".toList
  else x.signed (Numeral.ofMagnitude x.magnitude).inspected

end Double

/-! ## §3 Digits read off a text -/

namespace Decimal

/-- The natural number that decimal digits spell. -/
def number (cs : List Char) : Nat := cs.foldl (fun n c => 10 * n + (c.toNat - '0'.toNat)) 0

/-- The power of ten behind an `e`, if there is one. -/
def power : List Char → Int
  | '-' :: cs => -(number cs : Int)
  | '+' :: cs => number cs
  | cs => number cs

/-- The decimal that a text without a sign spells: all its digits, and the power of ten of the
last. -/
def ofText (text : List Char) : Decimal :=
  let mantissa := text.takeWhile (· != 'e')
  let whole := mantissa.takeWhile (· != '.')
  let fraction := (mantissa.dropWhile (· != '.')).drop 1
  ⟨number (whole ++ fraction), power ((text.dropWhile (· != 'e')).drop 1) - fraction.length⟩

end Decimal

/-- The number that a text spells, written anew with one digit before the point and a power of
ten. -/
def Numeral.respelled : List Char → List Char
  | '-' :: text => '-' :: (ofDecimal (.ofText text)).scientific
  | text => (ofDecimal (.ofText text)).scientific

/-! ## §4 The full and the brief form -/

namespace Double

/-- The double 10^-3. -/
def thousandth : Double := ofDecimal 1 (-3)

/-- The double 10^7. -/
def tenMillion : Double := ofDecimal 1 7

/-- Is a double written without an exponent? Zeros are, and the magnitudes from 10^-3 up to but not
including 10^7. -/
def isPlain (x : Double) : Bool :=
  x.isZero || (thousandth.magnitude ≤ x.magnitude && x.magnitude < tenMillion.magnitude)

/-- The full form: `7.0`, `-0.0`, `0.001`, `1.0E7`, `NaN`, `-Infinity`. -/
def fullForm (x : Double) : List Char :=
  if x.isNaN then "NaN".toList
  else if x.isInfinite then x.signed "Infinity".toList
  else if x.isPlain then x.inspectForm
  else Numeral.respelled x.inspectForm

/-- A text without a final `.0`. -/
def dropPointZero (cs : List Char) : List Char :=
  if ".0".toList.isSuffixOf cs then cs.dropLast.dropLast else cs

/-- The brief form: the full form without a final `.0`. -/
def briefForm (x : Double) : List Char := dropPointZero x.fullForm

end Double

end Scriptlet
