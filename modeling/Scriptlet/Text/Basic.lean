/-
Scriptlet.Text.Basic — the texts that scripts, values and messages are made of.

A script is read from bytes, and a byte that belongs to no well-formed UTF-8
sequence must survive until it is written again. A text is therefore a list of
symbols, a symbol being a character or such a stray byte. The two never compare
equal, not even when stray bytes put next to each other would spell a character.

  §1 Symbols  — the two kinds of symbol and the character classes of the language.
  §2 Texts    — texts from strings and numbers, their characters and their parts.
-/
namespace Scriptlet

/-! ## §1 Symbols -/

/-- One symbol of a text: a character, or a byte that is part of no character. -/
inductive Symbol where
  /-- A decoded character. -/
  | char (c : Char)
  /-- A byte that could not be decoded. -/
  | stray (byte : UInt8)
deriving DecidableEq, Repr, Inhabited

/-- A text is a list of symbols. -/
abbrev Text := List Symbol

namespace Symbol

/-- The symbol that ends a line. -/
def lineFeed : Symbol := .char '\n'

/-- The symbol that opens and closes a string. -/
def quote : Symbol := .char '"'

/-- The decimal point. -/
def point : Symbol := .char '.'

/-- Does the symbol hold a character that passes the test? A stray byte passes none. -/
def holds (test : Char → Bool) : Symbol → Bool
  | .char c => test c
  | .stray _ => false

/-- The ten decimal digits. -/
def isDigit : Symbol → Bool := holds Char.isDigit

/-- The number that a hexadecimal digit stands for. -/
def hexValue? : Symbol → Option Nat
  | .char c =>
    if c.isDigit then some (c.toNat - '0'.toNat)
    else if 'a' ≤ c ∧ c ≤ 'f' then some (c.toNat - 'a'.toNat + 10)
    else if 'A' ≤ c ∧ c ≤ 'F' then some (c.toNat - 'A'.toNat + 10)
    else none
  | .stray _ => none

/-- The sixteen hexadecimal digits, in small and capital letters. -/
def isHexDigit (s : Symbol) : Bool := s.hexValue?.isSome

/-- What a word may start with: an unaccented Latin letter or the low line. -/
def isWordStart : Symbol → Bool := holds fun c => c.isAlpha || c == '_'

/-- What a word may go on with: the symbols that may start one, and digits. -/
def isWordPart (s : Symbol) : Bool := s.isWordStart || s.isDigit

/-- Blanks inside a line: space, tab and carriage return. -/
def isBlank : Symbol → Bool := holds fun c => c == ' ' || c == '\t' || c == '\r'

/-- A stray byte never ends a line. -/
@[simp] theorem stray_ne_lineFeed (b : UInt8) : Symbol.stray b ≠ lineFeed := by
  simp [lineFeed]

end Symbol

/-! ## §2 Texts -/

namespace Text

/-- The text with the characters of a string. -/
def ofString (s : String) : Text := s.toList.map .char

instance : Coe String Text := ⟨ofString⟩

/-- The characters of a text in order, stray bytes left out. -/
def chars (t : Text) : List Char :=
  t.filterMap fun
    | .char c => some c
    | .stray _ => none

/-- A natural number in decimal digits. -/
def ofNat (n : Nat) : Text := (Nat.toDigits 10 n).map .char

/-- An integer in decimal digits, with a minus sign when it is negative. -/
def ofInt : Int → Text
  | .ofNat n => ofNat n
  | .negSucc n => .char '-' :: ofNat (n + 1)

/-- The text of a line followed by its line feed. -/
def line (t : Text) : Text := t ++ [Symbol.lineFeed]

/-- Splits a text at every occurrence of a symbol; there is always at least one part. -/
def splitOn (separator : Symbol) : Text → List Text
  | [] => [[]]
  | s :: rest =>
    if s = separator then [] :: splitOn separator rest
    else
      match splitOn separator rest with
      | [] => [[s]]
      | part :: parts => (s :: part) :: parts

/-- How many line feeds a text has. -/
def lineFeeds (t : Text) : Nat := t.count Symbol.lineFeed

/-- The offset of the last occurrence of a symbol. -/
def lastIndex? (s : Symbol) : Text → Option Nat
  | [] => none
  | first :: rest =>
    match lastIndex? s rest with
    | some i => some (i + 1)
    | none => if first = s then some 0 else none

theorem not_mem_of_lastIndex? {s : Symbol} {t : Text} (h : t.lastIndex? s = none) : s ∉ t := by
  induction t with
  | nil => simp
  | cons first rest ih =>
    rw [lastIndex?] at h
    split at h
    · cases h
    · next none =>
      split at h
      · cases h
      · next other => exact List.not_mem_cons_of_ne_of_not_mem (Ne.symm other) (ih none)

/-- Nothing of a string is lost when it is made a text. -/
@[simp] theorem chars_ofString (s : String) : (ofString s).chars = s.toList := by
  simp only [chars, ofString, List.filterMap_map]
  exact List.filterMap_some

@[simp] theorem ofString_append (s t : String) : ofString (s ++ t) = ofString s ++ ofString t := by
  simp [ofString]

end Text

end Scriptlet
