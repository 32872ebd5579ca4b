/-
Scriptlet.Editor.Word — the word at a position of a document.

An editor counts columns in UTF-16 units and ends lines at more characters than
the language does. The word at a position is the run of letters, digits and low
lines around it.

  §1 Lines as editors see them.
  §2 From units to symbols.
  §3 The word.
-/
import Scriptlet.Text.Basic

namespace Scriptlet.Editor

/-! ## §1 Lines as editors see them -/

/-- The characters at which a line ends. -/
def isLineBreak : Symbol → Bool :=
  Symbol.holds fun c =>
    c == '\n' || c == '\r' || c == '\x0b' || c == '\x0c' || c == '\x1c' || c == '\x1d' ||
      c == '\x1e' || c == '\u0085' || c == '\u2028' || c == '\u2029'

/-- The lines of a document with their ends; a carriage return and the line feed after it are one
end. -/
def documentLines : Text → List Text
  | [] => []
  | .char '\r' :: .char '\n' :: rest => [.char '\r', .char '\n'] :: documentLines rest
  | s :: rest =>
    if isLineBreak s then [s] :: documentLines rest
    else
      match documentLines rest with
      | [] => [[s]]
      | l :: ls => (s :: l) :: ls

/-- A line with the end of two characters replaced by a line feed. -/
def unifyEnd : Text → Text
  | [] => []
  | .char '\r' :: .char '\n' :: rest => .char '\n' :: unifyEnd rest
  | s :: rest => s :: unifyEnd rest

/-! ## §2 From units to symbols -/

/-- The UTF-16 units of a symbol. -/
def units : Symbol → Nat
  | .char c => if c.toNat > 0xFFFF then 2 else 1
  | .stray _ => 1

/-- The UTF-16 units of a line. -/
def lineUnits : Text → Nat
  | [] => 0
  | s :: rest => units s + lineUnits rest

/-- How many symbols of a line it takes to reach a number of units. -/
def symbolsToReach : Text → Nat → Nat
  | [], _ => 0
  | _, 0 => 0
  | s :: rest, n + 1 => symbolsToReach rest (n + 1 - units s) + 1

/-- The symbols before a column counted in units. A column behind the end of the line counts as that
before its last unit. -/
def symbolColumn (line : Text) (column : Nat) : Nat :=
  let unified := unifyEnd line
  let total := lineUnits unified
  symbolsToReach unified (if column > total then total - 1 else column)

/-! ## §3 The word -/

/-- The run of word symbols at the end of a text; a line feed behind it does not count. -/
def runAtEnd (t : Text) : Text :=
  let body := if t.getLast? = some Symbol.lineFeed then t.dropLast else t
  (body.reverse.takeWhile Symbol.isWordPart).reverse

/-- The word at a position, given by line and column in units. It may be empty. -/
def wordAt (document : Text) (line column : Nat) : Text :=
  match (documentLines document)[line]? with
  | none => []
  | some l =>
    let col := symbolColumn l column
    runAtEnd (l.take col) ++ (l.drop col).takeWhile Symbol.isWordPart

end Scriptlet.Editor
