/-
Scriptlet.Text.Quoted — texts in quotes, for inspection.

A text is shown between single quotes, or between double quotes if it has a
single quote and no double one. Backslash, line feed, carriage return and tab are
written with a backslash and a letter, as is the enclosing quote; any other
character that cannot be shown is written as its code point in hexadecimal, in
two, four or eight digits.

  §1 Escapes.
  §2 Quoting.
-/
import Scriptlet.Text.Basic
import Scriptlet.Text.Printable

namespace Scriptlet.Text

/-! ## §1 Escapes -/

/-- A number in at least so many hexadecimal digits. -/
def hex (width n : Nat) : List Char :=
  let digits := Nat.toDigits 16 n
  List.replicate (width - digits.length) '0' ++ digits

/-- A code point by its number. -/
def escapeCode (n : Nat) : List Char :=
  if n < 0x100 then '\\' :: 'x' :: hex 2 n
  else if n < 0x10000 then '\\' :: 'u' :: hex 4 n
  else '\\' :: 'U' :: hex 8 n

/-- A character inside the given quotes. -/
def escapeChar (quote c : Char) : List Char :=
  if c = quote ∨ c = '\\' then ['\\', c]
  else if c = '\n' then ['\\', 'n']
  else if c = '\r' then ['\\', 'r']
  else if c = '\t' then ['\\', 't']
  else if isPrintable c then [c]
  else escapeCode c.toNat

/-- A symbol inside the given quotes. A stray byte stands in the range set aside for such bytes,
from U+DC00 on. -/
def escapeSymbol (quote : Char) : Symbol → List Char
  | .char c => escapeChar quote c
  | .stray b => escapeCode (0xDC00 + b.toNat)

/-! ## §2 Quoting -/

/-- The quotes that fit a text. -/
def fittingQuote (t : Text) : Char :=
  if .char '\'' ∈ t ∧ .char '"' ∉ t then '"' else '\''

/-- A text in quotes. -/
def quoted (t : Text) : Text :=
  let q := fittingQuote t
  .char q :: (t.flatMap fun s => (escapeSymbol q s).map .char) ++ [.char q]

end Scriptlet.Text
