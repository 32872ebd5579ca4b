/-
Scriptlet.Text.Newline — line ends in what is read from files and streams.

Files and the standard input may end their lines with a line feed, a carriage
return or both. All three become a line feed before anything else looks at the
text, inside strings too.

  §1 One line end for all.
  §2 The lines of an input.
-/
import Scriptlet.Text.Basic

namespace Scriptlet.Text

/-! ## §1 One line end for all -/

/-- Writes every line end as a line feed: a carriage return with the line feed after it, if there
is one, becomes a single line feed. -/
def unifyNewlines : Text → Text
  | [] => []
  | .char '\r' :: .char '\n' :: rest => Symbol.lineFeed :: unifyNewlines rest
  | .char '\r' :: rest => Symbol.lineFeed :: unifyNewlines rest
  | s :: rest => s :: unifyNewlines rest

/-! ## §2 The lines of an input -/

/-- The lines of a text without their line feeds. A last line that no line feed ends counts, if it
is not empty. -/
def lines : Text → List Text
  | [] => []
  | s :: rest =>
    if s = Symbol.lineFeed then [] :: lines rest
    else
      match lines rest with
      | [] => [[s]]
      | l :: ls => (s :: l) :: ls

/-- Putting a line feed behind every line gives a text that ends its last line back. -/
theorem flatMap_line_lines (t : Text) :
    t.lines.flatMap Text.line = t ∨ t.lines.flatMap Text.line = Text.line t := by
  induction t with
  | nil => exact .inl rfl
  | cons s rest ih =>
    by_cases h : s = Symbol.lineFeed
    · subst h
      simp only [lines, ↓reduceIte, List.flatMap_cons]
      rcases ih with ih | ih <;> simp [ih, line]
    · cases found : lines rest with
      | nil =>
        simp only [found, List.flatMap_nil] at ih
        have empty : rest = [] := by
          rcases ih with ih | ih
          · exact ih.symm
          · simp [line] at ih
        simp [lines, h, empty, line]
      | cons l ls =>
        simp only [found] at ih
        simp only [lines, h, ↓reduceIte, found, List.flatMap_cons]
        simp only [List.flatMap_cons, line] at ih
        rcases ih with ih | ih <;> simp [line, ih]

end Scriptlet.Text
