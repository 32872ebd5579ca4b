/-
Scriptlet.Tree.Operation — reading tokens step by step.

The actions of the parser can be asked for one at a time, in any order and from
any place. Each gives a reply or unwinds with a complaint, and leaves the cursor
and the diagnostics for the next.

  §1 Operations and replies.
  §2 Performing operations.
-/
import Scriptlet.Tree.Parser

namespace Scriptlet.Parser

/-! ## §1 Operations and replies -/

/-- What can be asked of the parser. -/
inductive Operation where
  /-- The token ahead. -/
  | peek
  /-- The token passed last. -/
  | previous
  /-- Pass the token ahead. -/
  | advance
  /-- Is nothing ahead? -/
  | atEnd
  /-- Is a token of this kind ahead? -/
  | check (kind : Token.Kind)
  /-- Pass a token of one of these kinds, if one is ahead. -/
  | accept (kinds : List Token.Kind)
  /-- Pass a token of this kind, or unwind. -/
  | expect (kind : Token.Kind) (c : Complaint)
  /-- Report a complaint about a token. -/
  | report (t : Token) (c : Complaint)
  /-- Go on to a boundary between statements. -/
  | synchronize
  /-- Read an expression. -/
  | expression
  /-- Read a declaration or another statement, with recovery. -/
  | declaration
  /-- Read a statement other than a declaration. -/
  | statement
  /-- Read the rest of a declaration. -/
  | varStatement
  /-- Read the rest of a print statement. -/
  | printStatement
  /-- Read an expression statement. -/
  | expressionStatement
  /-- Read everything ahead. -/
  | program
deriving DecidableEq, Repr, Inhabited

/-- What an operation gives. -/
inductive Reply where
  | nothing
  | truth (b : Bool)
  | token (t : Token)
  | complaint (c : Complaint)
  | expression (e : Expr)
  | entry (e : Entry)
  | program (entries : List Entry)
deriving DecidableEq, Repr, Inhabited

/-! ## §2 Performing operations -/

/-- Performs an operation. -/
def perform (budget : Nat) : Operation → Action Reply
  | .peek => .token <$> peek
  | .previous => .token <$> previous
  | .advance => .token <$> advance
  | .atEnd => .truth <$> atEnd
  | .check kind => .truth <$> check kind
  | .accept kinds => return .truth (← accept? kinds).isSome
  | .expect kind c => .token <$> expect kind c
  | .report t c => do
    report t c
    return .complaint c
  | .synchronize => do
    synchronize
    return .nothing
  | .expression => .expression <$> expression budget
  | .declaration => .entry <$> declaration budget
  | .statement => return .entry (some (← statement budget))
  | .varStatement => return .entry (some (← varStatement budget))
  | .printStatement => return .entry (some (← printStatement budget))
  | .expressionStatement => return .entry (some (← expressionStatement budget))
  | .program => .program <$> program budget

/-- Performs an operation from a state: its reply or the complaint it unwinds with, and the state it
leaves. -/
def performFrom (budget : Nat) (s : State) (op : Operation) : Except Complaint Reply × State :=
  match perform budget op s with
  | .ok reply s' => (.ok reply, s')
  | .error c s' => (.error c, s')

end Scriptlet.Parser
