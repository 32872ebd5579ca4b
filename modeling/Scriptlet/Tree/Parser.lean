/-
Scriptlet.Tree.Parser — from tokens to trees.

Reading goes down one level of precedence at a time. Assignment binds loosest and
to the right, then come four levels of operators that bind to the left, then the
operators in front of an operand, and last literals, variables and parentheses.
Chains of operators on one level are read in a loop and are not nesting.

Every step down a level takes one unit of a nesting budget, so a parenthesis
costs seven, an operator in front one and a further `=` one. Where the budget
runs out the expression is refused like any other mistake.

A mistake is reported at the token ahead and unwinds to the statement it is in.
That statement is left out, and reading goes on at the next boundary. Only an
assignment to something that is no variable is reported without unwinding.

  §1 Actions on a cursor.
  §2 Expressions.
  §3 Statements.
  §4 Programs.
-/
import Scriptlet.Tree.Basic
import Scriptlet.Tree.Cursor
import Scriptlet.Token.Lexer

namespace Scriptlet.Parser

open Token (Kind)

/-! ## §1 Actions on a cursor -/

/-- Where reading stands and what has been reported. -/
structure State where
  /-- The place in the tokens. -/
  cursor : Cursor
  /-- What has been reported, in order. -/
  diagnostics : List Diagnostic
deriving DecidableEq, Repr, Inhabited

/-- An action moves the cursor and reports. It ends with a result or unwinds with the complaint that
it reported last; the state is kept either way. -/
abbrev Action := EStateM Complaint State

/-- The token ahead. -/
def peek : Action Token := return (← get).cursor.peek

/-- The token passed last. -/
def previous : Action Token := return (← get).cursor.previous

/-- Is nothing but the end ahead? -/
def atEnd : Action Bool := return (← get).cursor.atEnd

/-- Is a token of the given kind ahead? -/
def check (kind : Kind) : Action Bool := return (← get).cursor.sees kind

/-- Passes the token ahead, unless it is the end, and gives the token passed last. -/
def advance : Action Token := do
  modify fun s => { s with cursor := s.cursor.advance }
  previous

/-- Passes the token ahead if it is of one of the given kinds. -/
def accept? (kinds : List Kind) : Action (Option Token) := do
  if kinds.any (← get).cursor.sees then
    return some (← advance)
  else
    return none

/-- Reports a complaint about a token. -/
def report (t : Token) (c : Complaint) : Action Unit :=
  modify fun s => { s with diagnostics := s.diagnostics ++ [.atToken t c] }

/-- Reports a complaint about the token ahead and unwinds. -/
def refuse {α : Type} (c : Complaint) : Action α := do
  report (← peek) c
  throw c

/-- Passes a token of the given kind, or refuses what is there instead. -/
def expect (kind : Kind) (c : Complaint) : Action Token := do
  if ← check kind then advance else refuse c

/-- Goes on to the next boundary between statements. -/
def synchronize : Action Unit :=
  modify fun s => { s with cursor := s.cursor.synchronize }

/-! ## §2 Expressions -/

/-- The operators between two operands, from those that bind loosest to those that bind tightest. -/
def levels : List (List Kind) :=
  [[.bangEqual, .equalEqual], [.greater, .greaterEqual, .less, .lessEqual], [.minus, .plus],
   [.slash, .star]]

/-- The operators in front of an operand. -/
def prefixes : List Kind := [.bang, .minus]

/-- Goes on with a chain of operators of one level, for at most as many of them as there are
tokens in a list. -/
def chainOnto (operators : List Kind) (operand : Action Expr) : List Token → Expr → Action Expr
  | [], left => return left
  | _ :: rounds, left => do
    match ← accept? operators with
    | some operator =>
      let right ← operand
      chainOnto operators operand rounds (.binary left operator right)
    | none => return left

/-- A chain of operators of one level, which bind to the left. No chain has more operators than
there are tokens ahead. -/
def chain (operators : List Kind) (operand : Action Expr) : Action Expr := do
  let first ← operand
  chainOnto operators operand (← get).cursor.ahead first

mutual

/-- An expression, within a nesting budget. -/
def expression : Nat → Action Expr
  | 0 => refuse .nestingTooDeep
  | budget + 1 => do
    let left ← layer budget levels
    match ← accept? [.equal] with
    | none => return left
    | some sign =>
      let right ← expression budget
      match left with
      | .var name => return .assign name right
      | _ =>
        report sign .invalidTarget
        return left

/-- An expression of the given levels of operators; without any, an operand. -/
def layer : Nat → List (List Kind) → Action Expr
  | 0, _ => refuse .nestingTooDeep
  | budget + 1, operators :: tighter => chain operators (layer budget tighter)
  | budget + 1, [] => do
    match ← accept? prefixes with
    | some operator => return .unary operator (← layer budget [])
    | none => primary budget

/-- A literal, a variable or an expression in parentheses. -/
def primary : Nat → Action Expr
  | 0 => refuse .nestingTooDeep
  | budget + 1 => do
    if (← accept? [.falseWord]).isSome then return .literal (.bool false)
    if (← accept? [.trueWord]).isSome then return .literal (.bool true)
    if (← accept? [.nilWord]).isSome then return .literal .nil
    match ← accept? [.number, .string] with
    | some t => return .literal t.value
    | none =>
      match ← accept? [.name] with
      | some t => return .var t
      | none =>
        if (← accept? [.leftParen]).isSome then
          let inner ← expression budget
          let _ ← expect .rightParen .unclosedGroup
          return .group inner
        else
          refuse .expectedExpression

end

/-! ## §3 Statements -/

/-- The rest of a print statement, behind its word. -/
def printStatement (budget : Nat) : Action Stmt := do
  let value ← expression budget
  let _ ← expect .semicolon .unfinishedPrint
  return .print value

/-- The rest of a declaration, behind its word. -/
def varStatement (budget : Nat) : Action Stmt := do
  let name ← expect .name .missingName
  let initial ←
    if (← accept? [.equal]).isSome then some <$> expression budget else pure none
  let _ ← expect .semicolon .unfinishedVar
  return .var name initial

/-- An expression as a statement. -/
def expressionStatement (budget : Nat) : Action Stmt := do
  let e ← expression budget
  let _ ← expect .semicolon .unfinishedExpression
  return .expression e

/-- A statement other than a declaration. -/
def statement (budget : Nat) : Action Stmt := do
  if (← accept? [.printWord]).isSome then printStatement budget else expressionStatement budget

/-- A declaration or another statement. What unwinds ends here: nothing is read, and reading can go
on at the next boundary. -/
def declaration (budget : Nat) : Action Entry := do
  try
    if (← accept? [.varWord]).isSome then
      return some (← varStatement budget)
    else
      return some (← statement budget)
  catch _ =>
    synchronize
    return none

/-! ## §4 Programs -/

/-- Reads statements up to the end, but no more than there are tokens in a list. -/
def entries (budget : Nat) : List Token → Action (List Entry)
  | [] => return []
  | _ :: rounds => do
    if ← atEnd then
      return []
    else
      let entry ← declaration budget
      return entry :: (← entries budget rounds)

/-- Reads everything ahead. Each statement passes a token, so there are no more statements than
tokens. -/
def program (budget : Nat) : Action (List Entry) := do
  entries budget (← get).cursor.ahead

/-- The nesting that is allowed to an expression. -/
def nestingBudget : Nat := 980

end Parser

/-! ### Reading a source -/

/-- A source read into a program. -/
structure Parsed where
  /-- The tokens, the mark of the end included. -/
  tokens : List Token
  /-- The program. -/
  entries : List Entry
  /-- What was wrong, first with the tokens and then with the program. -/
  diagnostics : List Diagnostic
deriving DecidableEq, Repr, Inhabited

/-- Reads tokens into a program. Reading a program never unwinds. -/
def Lexed.parse (l : Lexed) (budget : Nat) : List Entry × List Diagnostic :=
  match Parser.program budget ⟨.start l.tokens l.last, []⟩ with
  | .ok program s => (program, s.diagnostics)
  | .error _ s => ([], s.diagnostics)

/-- Reads a source into a program. -/
def Text.parse (source : Text) : Parsed :=
  let lexed := source.lex
  let (entries, diagnostics) := lexed.parse Parser.nestingBudget
  ⟨lexed.all, entries, lexed.diagnostics ++ diagnostics⟩

end Scriptlet
