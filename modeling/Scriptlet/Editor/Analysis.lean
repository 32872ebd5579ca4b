/-
Scriptlet.Editor.Analysis — what an editor shows of one document.

The declarations of a document are those of its statements that could be read,
and its problems are the diagnostics that the command line would print. Lines are
counted from zero here.

  §1 Ranges.
  §2 Declarations and problems.
  §3 Analysis.
-/
import Scriptlet.Tree.Parser
import Scriptlet.Tree.Printer

namespace Scriptlet.Editor

/-! ## §1 Ranges -/

/-- A range of a document, the end excluded. -/
structure Range where
  startLine : Int
  startColumn : Nat
  endLine : Int
  endColumn : Nat
deriving DecidableEq, Repr, Inhabited

/-! ## §2 Declarations and problems -/

/-- A variable declared at the top level of a document. -/
structure Declaration where
  /-- Its name. -/
  name : Text
  /-- The document. -/
  uri : Text
  /-- The line of the name. -/
  line : Int
  /-- The column of the name. -/
  column : Nat
  /-- The declaration in a short form. -/
  detail : Text
deriving DecidableEq, Repr, Inhabited

/-- The range of the declared name. -/
def Declaration.range (d : Declaration) : Range :=
  ⟨d.line, d.column, d.line, d.column + d.name.length⟩

/-- Something wrong with a document. -/
structure Problem where
  /-- The line it is in, as a whole. -/
  range : Range
  /-- What is wrong. -/
  message : Text
deriving DecidableEq, Repr, Inhabited

/-- The problem that a diagnostic is to an editor. -/
def Problem.ofDiagnostic (d : Diagnostic) : Problem :=
  let row := max (d.line - 1) 0
  ⟨⟨row, 0, row + 1, 0⟩, d.text⟩

/-- The name under which problems are listed. -/
def problemSource : Text := "nice"

/-- A declaration in a short form, with its initial value in prefix form. -/
def detailOf (name : Token) (initial : Option Expr) : Text :=
  Text.ofString "var " ++ name.lexeme ++
    initial.elim [] fun e => Text.ofString " = " ++ e.text

/-- The declaration that an entry of a program makes. -/
def Declaration.ofEntry? (uri : Text) : Entry → Option Declaration
  | some (.var name initial) =>
    some ⟨name.lexeme, uri, name.line - 1, name.column, detailOf name initial⟩
  | _ => none

/-! ## §3 Analysis -/

/-- What is known of a document. -/
structure Analysis where
  declarations : List Declaration
  problems : List Problem
deriving DecidableEq, Repr, Inhabited

/-- Reads a document. -/
def analyze (uri text : Text) : Analysis :=
  let parsed := text.parse
  ⟨parsed.entries.filterMap (Declaration.ofEntry? uri), parsed.diagnostics.map .ofDiagnostic⟩

end Scriptlet.Editor
