/-
Scriptlet.Proofs.Tree.Relocation — reading does not look at places.

A relocation changes the lines and columns of tokens and of all that is made of
them. The parser copies places and never decides by them. So reading relocated
tokens gives relocated trees and relocated diagnostics (`parse_relocate`),
whatever the relocation does.

The argument is one lemma for each action: `Moves r g p q` says that `q`, from a
relocated state, does what `p` does, with the result changed by `g`. Actions put
together move if their parts do (`Moves.bind`).

  §1 Relocations.
  §2 The cursor.
  §3 Actions that move.
  §4 Reading.
-/
import Scriptlet.Proofs.Tree.Soundness

namespace Scriptlet

open Token (Kind)

/-! ## §1 Relocations -/

/-- A change of places: what becomes of a line and of a column. -/
structure Relocation where
  line : Int → Int
  column : Nat → Nat

/-- The relocation that makes all places the same. -/
def Relocation.nowhere : Relocation := ⟨fun _ => 0, fun _ => 0⟩

variable (r : Relocation)

/-- A token in another place. -/
def Token.relocate (t : Token) : Token :=
  { t with line := r.line t.line, column := r.column t.column }

/-- A diagnostic on another line. -/
def Diagnostic.relocate (d : Diagnostic) : Diagnostic := { d with line := r.line d.line }

/-- An expression made of relocated tokens. -/
def Expr.relocate : Expr → Expr
  | .literal v => .literal v
  | .group inner => .group inner.relocate
  | .unary operator operand => .unary (operator.relocate r) operand.relocate
  | .binary left operator right => .binary left.relocate (operator.relocate r) right.relocate
  | .var name => .var (name.relocate r)
  | .assign name value => .assign (name.relocate r) value.relocate
  | .misfit what => .misfit what

/-- A statement made of relocated tokens. -/
def Stmt.relocate : Stmt → Stmt
  | .expression e => .expression (e.relocate r)
  | .print e => .print (e.relocate r)
  | .var name initial => .var (name.relocate r) (initial.map (Expr.relocate r))
  | .misfit what => .misfit what

/-- An entry made of relocated tokens. -/
def Entry.relocate (entry : Entry) : Entry := entry.map (Stmt.relocate r)

/-- A source read into relocated tokens. -/
def Lexed.relocate (l : Lexed) : Lexed :=
  ⟨l.tokens.map (Token.relocate r), l.last.relocate r, l.diagnostics.map (Diagnostic.relocate r)⟩

/-! ## §2 The cursor -/

namespace Cursor

/-- A place in relocated tokens. -/
def relocate (c : Cursor) : Cursor :=
  ⟨c.passed.map (Token.relocate r), c.ahead.map (Token.relocate r), c.last.relocate r⟩

variable (c : Cursor)

theorem peek_relocate : (c.relocate r).peek = c.peek.relocate r := by
  obtain ⟨passed, ahead, last⟩ := c
  cases ahead <;> rfl

theorem previous_relocate : (c.relocate r).previous = c.previous.relocate r := by
  obtain ⟨passed, ahead, last⟩ := c
  cases passed <;> rfl

theorem sees_relocate (kind : Kind) : (c.relocate r).sees kind = c.sees kind := by
  obtain ⟨passed, ahead, last⟩ := c
  cases ahead <;> rfl

theorem atEnd_relocate : (c.relocate r).atEnd = c.atEnd := by
  obtain ⟨passed, ahead, last⟩ := c
  cases ahead <;> rfl

theorem advance_relocate : (c.relocate r).advance = c.advance.relocate r := by
  obtain ⟨passed, ahead, last⟩ := c
  cases ahead <;> rfl

theorem atBoundary_relocate : (c.relocate r).atBoundary = c.atBoundary := by
  unfold atBoundary
  rw [atEnd_relocate, previous_relocate, peek_relocate]
  rfl

theorem skipFrom_relocate (last : Token) (passed ahead : List Token) :
    skipFrom (last.relocate r) (passed.map (Token.relocate r)) (ahead.map (Token.relocate r)) =
      (skipFrom last passed ahead).relocate r := by
  induction ahead generalizing passed with
  | nil => rfl
  | cons t rest ih =>
    have boundary := atBoundary_relocate r ⟨passed, t :: rest, last⟩
    have boundary : (⟨passed.map (Token.relocate r), t.relocate r :: rest.map (Token.relocate r),
        last.relocate r⟩ : Cursor).atBoundary = _ := boundary
    rw [List.map_cons, skipFrom, skipFrom, boundary]
    cases (⟨passed, t :: rest, last⟩ : Cursor).atBoundary with
    | true => rfl
    | false => exact ih (t :: passed)

theorem synchronize_relocate : (c.relocate r).synchronize = c.synchronize.relocate r := by
  unfold synchronize toBoundary
  rw [advance_relocate]
  exact skipFrom_relocate r _ _ _

end Cursor

namespace Parser

/-! ## §3 Actions that move -/

/-- A state over relocated tokens. -/
def State.relocate (s : State) : State :=
  ⟨s.cursor.relocate r, s.diagnostics.map (Diagnostic.relocate r)⟩

/-- How an action ends over relocated tokens, its value changed by `g`. -/
def Result.relocate {α β : Type} (g : α → β) : Result α → Result β
  | .ok a s => .ok (g a) (s.relocate r)
  | .error c s => .error c (s.relocate r)

/-- `Moves r g p q`: over relocated tokens, `q` does what `p` does and gives its value changed by
`g`. -/
def Moves {α β : Type} (g : α → β) (p : Action α) (q : Action β) : Prop :=
  ∀ s, q (s.relocate r) = Result.relocate r g (p s)

section Combinators

variable {r} {α β γ δ : Type} {g : α → β} {h : γ → δ}

theorem Moves.pure (a : α) : Moves r g (pure a) (pure (g a)) := fun _ => rfl

theorem Moves.bind {p : Action α} {q : Action β} {f : α → Action γ} {k : β → Action δ}
    (first : Moves r g p q) (next : ∀ a, Moves r h (f a) (k (g a))) :
    Moves r h (p >>= f) (q >>= k) := by
  intro s
  have hq := first s
  cases hp : p s with
  | ok a s' =>
    rw [hp] at hq
    rw [bind_ok hp, bind_ok hq]
    exact next a s'
  | error c s' =>
    rw [hp] at hq
    rw [bind_error hp, bind_error hq]
    rfl

end Combinators

theorem moves_get : Moves r (State.relocate r) get get := fun _ => rfl

theorem moves_peek : Moves r (Token.relocate r) peek peek := by
  intro s
  show EStateM.Result.ok (s.cursor.relocate r).peek _ = _
  rw [Cursor.peek_relocate]
  rfl

theorem moves_check (kind : Kind) : Moves r id (check kind) (check kind) := by
  intro s
  show EStateM.Result.ok ((s.cursor.relocate r).sees kind) _ = _
  rw [Cursor.sees_relocate]
  rfl

theorem moves_atEnd : Moves r id atEnd atEnd := by
  intro s
  show EStateM.Result.ok (s.cursor.relocate r).atEnd _ = _
  rw [Cursor.atEnd_relocate]
  rfl

theorem moves_advance : Moves r (Token.relocate r) advance advance := by
  intro s
  show EStateM.Result.ok (s.cursor.relocate r).advance.previous
    (⟨(s.cursor.relocate r).advance, s.diagnostics.map (Diagnostic.relocate r)⟩ : State) = _
  rw [Cursor.advance_relocate, Cursor.previous_relocate]
  rfl

theorem moves_accept? (kinds : List Kind) :
    Moves r (Option.map (Token.relocate r)) (accept? kinds) (accept? kinds) := by
  refine .bind (moves_get r) fun s => ?_
  have sees : (s.relocate r).cursor.sees = s.cursor.sees :=
    funext fun kind => Cursor.sees_relocate r s.cursor kind
  rw [sees]
  cases kinds.any s.cursor.sees with
  | true => exact .bind (moves_advance r) fun t => .pure (some t)
  | false => exact .pure none

theorem moves_report (t : Token) (c : Complaint) :
    Moves r id (report t c) (report (t.relocate r) c) := by
  intro s
  show EStateM.Result.ok () (⟨_, s.diagnostics.map (Diagnostic.relocate r) ++ _⟩ : State) =
    EStateM.Result.ok () (⟨_, (s.diagnostics ++ _).map (Diagnostic.relocate r)⟩ : State)
  rw [List.map_append]
  rfl

theorem moves_refuse {α β : Type} (g : α → β) (c : Complaint) :
    Moves r g (refuse c) (refuse c) :=
  .bind (moves_peek r) fun t => .bind (moves_report r t c) fun _ => fun _ => rfl

theorem moves_expect (kind : Kind) (c : Complaint) :
    Moves r (Token.relocate r) (expect kind c) (expect kind c) := by
  refine .bind (moves_check r kind) fun seen => ?_
  cases seen with
  | true => exact moves_advance r
  | false => exact moves_refuse r _ c

/-! ## §4 Reading -/

/-- An action that reads an expression moves. -/
abbrev MovesExpr (p : Action Expr) : Prop := Moves r (Expr.relocate r) p p

theorem moves_chainOnto (operators : List Kind) {operand : Action Expr}
    (moves : MovesExpr r operand) (rounds : List Token) : ∀ left : Expr,
    Moves r (Expr.relocate r) (chainOnto operators operand rounds left)
      (chainOnto operators operand (rounds.map (Token.relocate r)) (left.relocate r)) := by
  induction rounds with
  | nil => exact fun left => .pure left
  | cons t rounds ih =>
    intro left
    refine .bind (moves_accept? r operators) fun found => ?_
    cases found with
    | none => exact .pure left
    | some operator => exact .bind moves fun right => ih (.binary left operator right)

theorem moves_chain (operators : List Kind) {operand : Action Expr}
    (moves : MovesExpr r operand) : MovesExpr r (chain operators operand) :=
  .bind moves fun first => .bind (moves_get r) fun s =>
    moves_chainOnto r operators moves s.cursor.ahead first

/-- Passing a token of some kind, if one is ahead, and going on by whether it was. -/
theorem moves_ifAccept {α β : Type} {g : α → β} (kinds : List Kind) {p p' : Action α}
    {q q' : Action β} (moves : Moves r g p q) (moves' : Moves r g p' q') :
    Moves r g (do if (← accept? kinds).isSome then p else p')
      (do if (← accept? kinds).isSome then q else q') := by
  refine .bind (moves_accept? r kinds) fun found => ?_
  cases found with
  | none => exact moves'
  | some _ => exact moves

theorem moves_expression (budget : Nat) : MovesExpr r (expression budget) ∧
    (∀ operators, MovesExpr r (layer budget operators)) ∧ MovesExpr r (primary budget) := by
  -- every step down a level takes from the budget, so all three are told together
  induction budget with
  | zero =>
    refine ⟨moves_refuse r _ _, fun operators => ?_, moves_refuse r _ _⟩
    cases operators <;> exact moves_refuse r _ _
  | succ budget ih =>
    obtain ⟨expression, layer, primary⟩ := ih
    refine ⟨?_, fun operators => ?_, ?_⟩
    · refine .bind (layer levels) fun left => .bind (moves_accept? r [.equal]) fun found => ?_
      cases found with
      | none => exact .pure left
      | some sign =>
        refine .bind expression fun right => ?_
        cases left with
        | var name => exact .pure (Expr.assign name right)
        | literal | group | unary | binary | assign | misfit =>
          exact .bind (moves_report r sign .invalidTarget) fun _ => .pure _
    · cases operators with
      | cons level tighter => exact moves_chain r level (layer tighter)
      | nil =>
        refine .bind (moves_accept? r prefixes) fun found => ?_
        cases found with
        | none => exact primary
        | some operator => exact .bind (layer []) fun operand => .pure (Expr.unary operator operand)
    · refine moves_ifAccept r _ (.pure _) (moves_ifAccept r _ (.pure _)
        (moves_ifAccept r _ (.pure _) (.bind (moves_accept? r _) fun found => ?_)))
      cases found with
      | some t => exact .pure (Expr.literal t.value)
      | none =>
        refine .bind (moves_accept? r _) fun found => ?_
        cases found with
        | some t => exact .pure (Expr.var t)
        | none =>
          refine moves_ifAccept r _ ?_ (moves_refuse r _ _)
          exact .bind expression fun inner => .bind (moves_expect r _ _) fun _ =>
            .pure (Expr.group inner)

theorem moves_varStatement (budget : Nat) :
    Moves r (Stmt.relocate r) (varStatement budget) (varStatement budget) := by
  refine .bind (moves_expect r _ _) fun name => ?_
  refine moves_ifAccept r [.equal] ?_ ?_
  · refine .bind (g := Option.map (Expr.relocate r)) ?_ fun initial => ?_
    · exact .bind (moves_expression r budget).1 fun e => .pure (some e)
    · exact .bind (moves_expect r _ _) fun _ => .pure (Stmt.var name initial)
  · refine .bind (g := Option.map (Expr.relocate r)) (.pure none) fun initial => ?_
    exact .bind (moves_expect r _ _) fun _ => .pure (Stmt.var name initial)

theorem moves_statement (budget : Nat) :
    Moves r (Stmt.relocate r) (statement budget) (statement budget) := by
  refine moves_ifAccept r _ ?_ ?_
  · exact .bind (moves_expression r budget).1 fun e => .bind (moves_expect r _ _) fun _ =>
      .pure (Stmt.print e)
  · exact .bind (moves_expression r budget).1 fun e => .bind (moves_expect r _ _) fun _ =>
      .pure (Stmt.expression e)

theorem moves_declaration (budget : Nat) :
    Moves r (Entry.relocate r) (declaration budget) (declaration budget) := by
  intro s
  have moves : Moves r (Stmt.relocate r) (attempt budget) (attempt budget) :=
    moves_ifAccept r _ (moves_varStatement r budget) (moves_statement r budget)
  rw [declaration_eq, declaration_eq, moves s]
  cases attempt budget s with
  | ok stmt s' => rfl
  | error c s' =>
    show EStateM.Result.ok none (⟨(s'.cursor.relocate r).synchronize, _⟩ : State) = _
    rw [Cursor.synchronize_relocate]
    rfl

theorem moves_entries (budget : Nat) (rounds : List Token) :
    Moves r (List.map (Entry.relocate r)) (entries budget rounds)
      (entries budget (rounds.map (Token.relocate r))) := by
  induction rounds with
  | nil => exact .pure []
  | cons t rounds ih =>
    refine .bind (moves_atEnd r) fun done => ?_
    cases done with
    | true => exact .pure []
    | false =>
      exact .bind (moves_declaration r budget) fun entry => .bind ih fun others =>
        .pure (entry :: others)

theorem moves_program (budget : Nat) :
    Moves r (List.map (Entry.relocate r)) (program budget) (program budget) :=
  .bind (moves_get r) fun s => moves_entries r budget s.cursor.ahead

end Parser

/-- **Reading does not look at places.** Relocated tokens are read into relocated trees, with
relocated diagnostics. -/
theorem Lexed.parse_relocate (l : Lexed) (budget : Nat) :
    (l.relocate r).parse budget = ((l.parse budget).1.map (Entry.relocate r),
      (l.parse budget).2.map (Diagnostic.relocate r)) := by
  have moves := Parser.moves_program r budget ⟨.start l.tokens l.last, []⟩
  have moves : Parser.program budget ⟨.start (l.relocate r).tokens (l.relocate r).last, []⟩ = _ :=
    moves
  unfold Lexed.parse
  rw [moves]
  cases Parser.program budget ⟨.start l.tokens l.last, []⟩ <;> rfl

end Scriptlet
