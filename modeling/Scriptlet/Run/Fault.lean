/-
Scriptlet.Run.Fault — what can go wrong while a program runs.

A runtime error is the program's own: it has a cause and the token at which it
arose. Anything else that stops a run comes from a tree that is none.

  §1 Runtime errors.
  §2 Faults.
-/
import Scriptlet.Tree.Basic

namespace Scriptlet

/-! ## §1 Runtime errors -/

/-- The causes of runtime errors. -/
inductive RuntimeError.Cause where
  /-- A variable that has not been declared. -/
  | undefinedVariable
  /-- A minus in front of something that is no number. -/
  | operandNotNumber
  /-- Arithmetic or comparison of things that are not both numbers. -/
  | operandsNotNumbers
  /-- A plus between things that are neither two numbers nor two strings. -/
  | operandsNotAddable
  /-- A token that is no operator in front of an operand. -/
  | unknownUnary
  /-- A token that is no operator between operands. -/
  | unknownBinary
deriving DecidableEq, Repr, Inhabited

/-- An error of the program. -/
structure RuntimeError where
  /-- What went wrong. -/
  cause : RuntimeError.Cause
  /-- The variable or operator where it did. -/
  token : Token
deriving DecidableEq, Repr, Inhabited

namespace RuntimeError

/-- The line of an error. -/
def line (e : RuntimeError) : Int := e.token.line

/-- The words of an error. -/
def message (e : RuntimeError) : Text :=
  match e.cause with
  | .undefinedVariable =>
    Text.ofString "Undefined variable '" ++ e.token.lexeme ++ Text.ofString "'."
  | .operandNotNumber => "Operand must be a number."
  | .operandsNotNumbers => "Operands must be a number."
  | .operandsNotAddable => "Operands must be two numbers or two strings."
  | .unknownUnary =>
    Text.ofString "Unknown unary operator '" ++ e.token.lexeme ++ Text.ofString "'."
  | .unknownBinary =>
    Text.ofString "Unknown binary operator '" ++ e.token.lexeme ++ Text.ofString "'."

/-- The report of an error: its words, and its line below them. -/
def report (e : RuntimeError) : Text :=
  Text.line e.message ++
    Text.line (Text.ofString "[line " ++ Text.ofInt e.line ++ Text.ofString "]")

end RuntimeError

/-! ## §2 Faults -/

/-- What stops a run. -/
inductive Fault where
  /-- An error of the program. -/
  | runtime (e : RuntimeError)
  /-- A misfit in the place of an expression. -/
  | notExpression (what : Misfit)
  /-- A misfit in the place of a statement. -/
  | notStatement (what : Misfit)
deriving DecidableEq, Repr, Inhabited

/-- The words of a fault. Those for a labelled misfit are not fixed. -/
def Fault.message? : Fault → Option Text
  | .runtime e => some e.message
  | .notExpression .nothing => some "Invalid expression node: None"
  | .notStatement .nothing => some "Invalid statement node: None"
  | .notExpression (.labelled _) | .notStatement (.labelled _) => none

end Scriptlet
