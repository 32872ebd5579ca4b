/-
Scriptlet.Tree.Basic — the trees of expressions and statements.

A tree keeps the tokens that a later stage needs: operators for their kind, line
and lexeme, and the names of variables. Trees may also be built by hand, out of
operators that fit nowhere and of things that are no tree at all; the latter are
misfits, known only by a label. No tree that was read from a source has one.

  §1 Misfits.
  §2 Expressions and statements.
-/
import Scriptlet.Token.Basic

namespace Scriptlet

/-! ## §1 Misfits -/

/-- Something that stands where a node of a tree belongs. -/
inductive Misfit where
  /-- Nothing at all. -/
  | nothing
  /-- A thing of another kind, with the name of its kind. -/
  | labelled (label : Text)
deriving DecidableEq, Repr, Inhabited

/-- The name of a misfit's kind. -/
def Misfit.label : Misfit → Text
  | .nothing => "NoneType"
  | .labelled label => label

/-! ## §2 Expressions and statements -/

/-- An expression. -/
inductive Expr where
  /-- A value written in the source. -/
  | literal (value : Value)
  /-- An expression in parentheses. -/
  | group (inner : Expr)
  /-- An operator in front of its operand. -/
  | unary (operator : Token) (operand : Expr)
  /-- An operator between its operands. -/
  | binary (left : Expr) (operator : Token) (right : Expr)
  /-- The value of a variable. -/
  | var (name : Token)
  /-- An assignment to a variable, with the assigned value as its value. -/
  | assign (name : Token) (value : Expr)
  /-- No expression. -/
  | misfit (what : Misfit)
deriving DecidableEq, Repr, Inhabited

/-- A statement. -/
inductive Stmt where
  /-- An expression evaluated for its effect. -/
  | expression (e : Expr)
  /-- An expression whose value is printed. -/
  | print (e : Expr)
  /-- The declaration of a variable, nil without an initial value. -/
  | var (name : Token) (initial : Option Expr)
  /-- No statement. -/
  | misfit (what : Misfit)
deriving DecidableEq, Repr, Inhabited

/-- An entry of a program: a statement, or nothing where a statement could not be read. -/
abbrev Entry := Option Stmt

end Scriptlet
