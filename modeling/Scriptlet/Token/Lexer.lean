/-
Scriptlet.Token.Lexer — from pieces to tokens.

A string, number, word or mark becomes a token, a comment or blank becomes
nothing, and the other pieces become diagnostics. The reader counts lines on its
way: it keeps the line it is in and the offset at which that line begins. It looks
for line feeds only where a piece can hold one. Reading never stops early, and the
tokens always end in one that marks the end of the source.

  §1 Counting lines.
  §2 What a piece becomes.
  §3 Reading a source.
-/
import Scriptlet.Token.Piece
import Scriptlet.Diagnostic

namespace Scriptlet

/-! ## §1 Counting lines -/

/-- What a reader keeps to tell lines and columns by. -/
structure Counter where
  /-- The line that is read, counted from one. -/
  line : Int
  /-- The offset at which that line begins. -/
  lineStart : Nat
deriving DecidableEq, Repr, Inhabited

namespace Counter

/-- How every source begins. -/
def start : Counter := ⟨1, 0⟩

/-- The column of an offset in the line that is read. -/
def column (c : Counter) (offset : Nat) : Nat := offset - c.lineStart

/-- Behind a slice at an offset: a line for each line feed in it, the last of which begins behind
the last line feed. -/
def skipLines (c : Counter) (offset : Nat) (t : Text) : Counter :=
  match t.lastIndex? Symbol.lineFeed with
  | some i => ⟨c.line + t.lineFeeds, offset + i + 1⟩
  | none => c

/-- Behind a piece at an offset. Only strings are searched for line feeds. -/
def pass (c : Counter) (offset : Nat) (piece : Piece) : Counter :=
  match piece.form with
  | .newline => ⟨c.line + 1, offset + piece.text.length⟩
  | .string | .openString => c.skipLines offset piece.text
  | .number | .word | .comment | .mark _ | .blank | .unknown => c

end Counter

/-! ## §2 What a piece becomes -/

namespace Piece

/-- The double that the text of a number spells: the digits with the point left out, divided by a
power of ten for each digit behind the point. -/
def numberValue (t : Text) : Double :=
  let whole := t.takeWhile Symbol.isDigit
  let fraction := (t.dropWhile Symbol.isDigit).drop 1
  Double.ofDecimal (Decimal.number (Text.chars (whole ++ fraction))) (-(fraction.length : Int))

/-- The text between the quotes. -/
def unquoted (t : Text) : Text := t.tail.dropLast

/-- Kind and literal of the token that a piece becomes, if it becomes one. -/
def meaning? (piece : Piece) : Option (Token.Kind × Option Token.Literal) :=
  match piece.form with
  | .string => some (.string, some (.string (unquoted piece.text)))
  | .number => some (.number, some (.number (numberValue piece.text)))
  | .word => some (Token.Kind.ofWord piece.text, none)
  | .mark kind => some (kind, none)
  | .openString | .comment | .newline | .blank | .unknown => none

/-- What is wrong with a piece, if anything is. -/
def complaint? (piece : Piece) : Option Complaint :=
  match piece.form with
  | .openString => some .unterminatedString
  | .unknown => some .unexpectedCharacter
  | _ => none

/-- The token that a piece becomes, with its line and column. -/
def tokenIn? (line : Int) (column : Nat) (piece : Piece) : Option Token :=
  piece.meaning?.map fun (kind, literal) => ⟨kind, piece.text, literal, line, column⟩

/-- The diagnostic that a piece becomes, with its line. -/
def diagnosticIn? (line : Int) (piece : Piece) : Option Diagnostic :=
  piece.complaint?.map (.inLine line)

end Piece

/-! ## §3 Reading a source -/

/-- A source read into tokens. -/
structure Lexed where
  /-- The tokens, without the one that marks the end. -/
  tokens : List Token
  /-- The token that marks the end. -/
  last : Token
  /-- What was wrong, in the order of the source. -/
  diagnostics : List Diagnostic
deriving DecidableEq, Repr, Inhabited

/-- All tokens, the mark of the end included. -/
def Lexed.all (l : Lexed) : List Token := l.tokens ++ [l.last]

/-- The token that marks the end of a source that ends in the given line. -/
def Token.ending (line : Int) : Token := ⟨.finish, [], none, line, 0⟩

/-- Reads pieces, the first of them at an offset. A piece has the line in which it ends and the
column at which it begins. -/
def Counter.read (c : Counter) (offset : Nat) : List Piece → Lexed
  | [] => ⟨[], .ending c.line, []⟩
  | piece :: rest =>
    let behind := c.pass offset piece
    let others := behind.read (offset + piece.text.length) rest
    { tokens := (piece.tokenIn? behind.line (c.column offset)).toList ++ others.tokens
      last := others.last
      diagnostics := (piece.diagnosticIn? behind.line).toList ++ others.diagnostics }

/-- Reads a source into tokens. -/
def Text.lex (source : Text) : Lexed := Counter.start.read 0 source.pieces

end Scriptlet
