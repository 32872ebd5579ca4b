/-
Scriptlet.Tree.Cursor — a place in a list of tokens.

The token that marks the end is kept apart: it is seen when nothing else is
ahead, and it is never passed. Before the first step it also stands for the
token passed last.

  §1 Looking and moving.
  §2 Skipping to a boundary between statements.
-/
import Scriptlet.Token.Basic

namespace Scriptlet

/-! ## §1 Looking and moving -/

/-- A place in a list of tokens. -/
structure Cursor where
  /-- The tokens passed, the latest first. -/
  passed : List Token
  /-- The tokens ahead, without the mark of the end. -/
  ahead : List Token
  /-- The token that marks the end. -/
  last : Token
deriving DecidableEq, Repr, Inhabited

namespace Cursor

/-- The place before the first of some tokens. -/
def start (tokens : List Token) (last : Token) : Cursor := ⟨[], tokens, last⟩

/-- The number of tokens passed. -/
def position (c : Cursor) : Nat := c.passed.length

/-- Is nothing but the end ahead? -/
def atEnd (c : Cursor) : Bool := c.ahead.isEmpty

/-- The token ahead. -/
def peek (c : Cursor) : Token := c.ahead.headD c.last

/-- The token passed last. -/
def previous (c : Cursor) : Token := c.passed.headD c.last

/-- The place behind the next token; the end stays where it is. -/
def advance (c : Cursor) : Cursor :=
  match c.ahead with
  | [] => c
  | t :: rest => ⟨t :: c.passed, rest, c.last⟩

/-- Is a token of the given kind ahead? The end is of no kind that can be asked for. -/
def sees (c : Cursor) (kind : Token.Kind) : Bool :=
  match c.ahead with
  | [] => false
  | t :: _ => t.kind == kind

/-! ## §2 Skipping to a boundary between statements -/

/-- Is the cursor between statements: at the end, behind a semicolon or before a word that only
starts statements? -/
def atBoundary (c : Cursor) : Bool :=
  c.atEnd || c.previous.kind == .semicolon || c.peek.kind.startsStatement

/-- From the given place on, the first that is between statements. -/
def skipFrom (last : Token) (passed : List Token) : List Token → Cursor
  | [] => ⟨passed, [], last⟩
  | t :: rest =>
    if (⟨passed, t :: rest, last⟩ : Cursor).atBoundary then ⟨passed, t :: rest, last⟩
    else skipFrom last (t :: passed) rest

/-- The first place between statements from the cursor on. -/
def toBoundary (c : Cursor) : Cursor := skipFrom c.last c.passed c.ahead

/-- Passes one token, whatever it is, and then goes on to a place between statements. -/
def synchronize (c : Cursor) : Cursor := c.advance.toBoundary

/-! ### What moving keeps -/

/-- All tokens from first to last, the mark of the end left out. -/
def tokens (c : Cursor) : List Token := c.passed.reverse ++ c.ahead

@[simp] theorem tokens_start (tokens : List Token) (last : Token) :
    (start tokens last).tokens = tokens := rfl

@[simp] theorem tokens_advance (c : Cursor) : c.advance.tokens = c.tokens := by
  unfold advance
  split
  · rfl
  · next h => simp [tokens, h]

@[simp] theorem last_advance (c : Cursor) : c.advance.last = c.last := by
  unfold advance
  split <;> rfl

theorem skipFrom_tokens (last : Token) (passed ahead : List Token) :
    (skipFrom last passed ahead).tokens = passed.reverse ++ ahead := by
  induction ahead generalizing passed with
  | nil => rfl
  | cons t rest ih =>
    unfold skipFrom
    split
    · rfl
    · rw [ih]; simp

@[simp] theorem tokens_toBoundary (c : Cursor) : c.toBoundary.tokens = c.tokens :=
  skipFrom_tokens c.last c.passed c.ahead

@[simp] theorem tokens_synchronize (c : Cursor) : c.synchronize.tokens = c.tokens := by
  simp [synchronize]

end Cursor

end Scriptlet
