/-
Scriptlet.Tree.Printer — trees in prefix form.

An operator comes first, then its operands, all in parentheses: `1 + 2 * 3` is
`(+ 1 (* 2 3))`. A chain `a + b + c` leans to the left, and to follow it by
recursion would take a frame for each operator. The printer therefore walks down
to the first operand once and then puts the pending operators around its text in
a loop. The plain recursion is kept beside it as the prefix form of an expression.
It puts the form in front of a given rest.

  §1 Expressions in a loop.
  §2 Statements.
  §3 The prefix form of an expression.
-/
import Scriptlet.Tree.Basic

namespace Scriptlet

/-! ## §1 Expressions in a loop -/

/-- A name and what belongs to it, with a blank before each, in parentheses. -/
def Text.parenthesized (name : Text) (parts : List Text) : Text :=
  .char '(' :: (name ++ parts.flatMap (.char ' ' :: ·) ++ [.char ')'])

/-- A literal in prefix form: strings stand in quotes. -/
def Value.quoted : Value → Text
  | .string t => Symbol.quote :: (t ++ [Symbol.quote])
  | v => v.text

namespace Expr

/-- An operator with the text of its right operand. -/
abbrev Wrapper := Token × Text

/-- Puts an operator with its right operand around the text of its left operand. -/
def wrap (left : Text) (w : Wrapper) : Text := Text.parenthesized w.1.lexeme [left, w.2]

/-- The text of an expression with pending operators put around it. -/
def textWith : Expr → List Wrapper → Text
  | .binary left operator right, pending =>
    left.textWith ((operator, right.textWith []) :: pending)
  | .literal v, pending => pending.foldl wrap v.quoted
  | .group inner, pending =>
    pending.foldl wrap (Text.parenthesized "group" [inner.textWith []])
  | .unary operator operand, pending =>
    pending.foldl wrap (Text.parenthesized operator.lexeme [operand.textWith []])
  | .var name, pending => pending.foldl wrap name.lexeme
  | .assign name value, pending =>
    pending.foldl wrap (Text.parenthesized "=" [name.lexeme, value.textWith []])
  | .misfit what, pending =>
    pending.foldl wrap (Text.ofString "<expr " ++ what.label ++ [.char '>'])

/-- The text of an expression. -/
def text (e : Expr) : Text := e.textWith []

end Expr

/-! ## §2 Statements -/

/-- The prefix form of a statement. -/
def Stmt.text : Stmt → Text
  | .expression e => Text.parenthesized "expr" [e.text]
  | .print e => Text.parenthesized "print" [e.text]
  | .var name none => Text.parenthesized "var" [name.lexeme]
  | .var name (some e) => Text.parenthesized "var" [name.lexeme, e.text]
  | .misfit what => Text.ofString "<stmt " ++ what.label ++ [.char '>']

/-- The prefix form of an entry; a statement that could not be read has a text of its own. -/
def Entry.text : Entry → Text
  | some s => s.text
  | none => "<error>"

/-! ## §3 The prefix form of an expression -/

namespace Expr

/-- The prefix form of an expression, by recursion, in front of a rest. -/
def textOnto : Expr → Text → Text
  | .literal v, rest => v.quoted ++ rest
  | .group inner, rest => Text.ofString "(group " ++ inner.textOnto (.char ')' :: rest)
  | .unary operator operand, rest =>
    .char '(' :: (operator.lexeme ++ .char ' ' :: operand.textOnto (.char ')' :: rest))
  | .binary left operator right, rest =>
    .char '(' :: (operator.lexeme ++
      .char ' ' :: left.textOnto (.char ' ' :: right.textOnto (.char ')' :: rest)))
  | .var name, rest => name.lexeme ++ rest
  | .assign name value, rest =>
    Text.ofString "(= " ++ name.lexeme ++ .char ' ' :: value.textOnto (.char ')' :: rest)
  | .misfit what, rest => Text.ofString "<expr " ++ what.label ++ .char '>' :: rest

/-- The rest is only carried along. -/
theorem textOnto_append (e : Expr) (rest : Text) : e.textOnto rest = e.textOnto [] ++ rest := by
  induction e generalizing rest with
  | literal v => simp [textOnto]
  | group inner ih => simp [textOnto, ih (.char ')' :: rest), ih [.char ')']]
  | unary operator operand ih => simp [textOnto, ih (.char ')' :: rest), ih [.char ')']]
  | binary left operator right ihl ihr =>
    simp only [textOnto]
    rw [ihl, ihl (.char ' ' :: right.textOnto _), ihr, ihr [.char ')']]
    simp
  | var name => simp [textOnto]
  | assign name value ih => simp [textOnto, ih (.char ')' :: rest), ih [.char ')']]
  | misfit what => simp [textOnto]

/-- The loop writes the prefix form of the expression, with the pending operators around it. -/
theorem textWith_eq_foldl (e : Expr) (pending : List Wrapper) :
    e.textWith pending = pending.foldl wrap (e.textOnto []) := by
  induction e generalizing pending with
  | literal v => simp [textWith, textOnto]
  | group inner ih =>
    rw [textWith, ih, textOnto, inner.textOnto_append [.char ')']]
    simp [Text.parenthesized, Text.ofString]
  | unary operator operand ih =>
    rw [textWith, ih, textOnto, operand.textOnto_append [.char ')']]
    simp [Text.parenthesized]
  | binary left operator right ihl ihr =>
    rw [textWith, ihl, List.foldl_cons, ihr, textOnto, left.textOnto_append (.char ' ' :: _),
      right.textOnto_append [.char ')']]
    simp [wrap, Text.parenthesized]
  | var name => simp [textWith, textOnto]
  | assign name value ih =>
    rw [textWith, ih, textOnto, value.textOnto_append [.char ')']]
    simp [Text.parenthesized, Text.ofString]
  | misfit what => simp [textWith, textOnto]

/-- Expressions are printed in prefix form. -/
theorem text_eq_textOnto (e : Expr) : e.text = e.textOnto [] := e.textWith_eq_foldl []

theorem textOnto_eq (e : Expr) (rest : Text) : e.textOnto rest = e.text ++ rest := by
  rw [textOnto_append, text_eq_textOnto]

end Expr

end Scriptlet
