/-
Scriptlet.Proofs.Tree.Nesting — how much of the budget the tokens of a program take.

Reading an expression goes down seven functions before it comes to an operand, and
their frames are held until the expression ends. An open parenthesis holds seven
more, for the expression inside it. An operator in front holds one until its
operand ends, and an equals sign one until the expression ends that it is in. An
operator between two operands holds nothing: the second operand is read where the
first one was.

`Nesting` counts these frames over the tokens from left to right. It knows no tree
and no budget, only what is pending.

  §1 What is pending at a token.
  §2 The frames of each step.
  §3 Tokens that fit a budget.
-/
import Scriptlet.Proofs.Tree.Grammar

namespace Scriptlet

open Token (Kind)

/-! ## §1 What is pending at a token -/

/-- What is pending in an expression that has begun. -/
structure Pending where
  /-- The equals signs whose right side has not ended. -/
  signs : Nat
  /-- The operators in front of an operand that has not ended. -/
  operators : Nat
deriving DecidableEq, Repr

/-- The frames of an expression: one for each function down to an operand, and one for everything
that is pending. -/
def Pending.frames (p : Pending) : Nat := 7 + p.signs + p.operators

/-- The frames of several expressions, one around the other. -/
def Pending.framesOfAll : List Pending → Nat
  | [] => 0
  | p :: around => p.frames + framesOfAll around

/-- What comes next. -/
inductive Turn where
  /-- The name that is declared, or the sign behind it. -/
  | header
  /-- An operand. -/
  | operand
  /-- What can follow an operand. -/
  | operator
deriving DecidableEq, Repr

/-- What is pending at a token. -/
structure Nesting where
  /-- In the innermost expression. -/
  here : Pending
  /-- In the expressions around it, from the inside out. Each waits for its parenthesis to close. -/
  around : List Pending
  /-- What comes next. -/
  turn : Turn
deriving DecidableEq, Repr

/-- The frames from a category down to an operand. -/
def Category.frames : Category → Nat
  | .assignment => 7
  | .equality => 6
  | .comparison => 5
  | .term => 4
  | .factor => 3
  | .unary => 2
  | .primary => 1

namespace Nesting

/-- The frames of all expressions that have begun. -/
def frames (n : Nesting) : Nat := Pending.framesOfAll (n.here :: n.around)

/-- Between statements. -/
def start : Nesting := ⟨⟨0, 0⟩, [], .operand⟩

/-- Behind the word of a declaration. -/
def header : Nesting := ⟨⟨0, 0⟩, [], .header⟩

/-- Behind an operand. -/
def ended (n : Nesting) : Nesting := ⟨⟨n.here.signs, 0⟩, n.around, .operator⟩

/-- Behind an operator between two operands. -/
def joined (n : Nesting) : Nesting := { n with turn := .operand }

/-- Behind an operator in front of an operand. -/
def prefixed (n : Nesting) : Nesting := ⟨⟨n.here.signs, n.here.operators + 1⟩, n.around, .operand⟩

/-- Behind the sign of an assignment. -/
def assigned (n : Nesting) : Nesting := ⟨⟨n.here.signs + 1, 0⟩, n.around, .operand⟩

/-- Behind an opening parenthesis. -/
def opened (n : Nesting) : Nesting := ⟨⟨0, 0⟩, n.here :: n.around, .operand⟩

/-- Behind a closing parenthesis: what was inside it is over, and all of it is an operand. -/
def closed (n : Nesting) : Nesting :=
  match n.around with
  | [] => n.ended
  | outer :: around => ended ⟨outer, around, .operand⟩

/-- What is pending behind one more token. A semicolon and the words that start statements end
whatever has begun. -/
def step (n : Nesting) (t : Token) : Nesting :=
  match t.kind with
  | .semicolon | .classWord | .funWord | .forWord | .ifWord | .whileWord | .printWord
  | .returnWord => start
  | .varWord => header
  | .name => if n.turn = .header then n else n.ended
  | .equal => if n.turn = .header then n.joined else n.assigned
  | .falseWord | .trueWord | .nilWord | .number | .string => n.ended
  | .leftParen => n.opened
  | .rightParen => n.closed
  | .bang => n.prefixed
  -- behind an operand a minus stands between two of them
  | .minus => if n.turn = .operator then n.joined else n.prefixed
  | .bangEqual | .equalEqual | .greater | .greaterEqual | .less | .lessEqual | .plus | .slash
  | .star => n.joined
  -- no other token has a place in an expression
  | _ => n

/-- What is pending behind some tokens. -/
def behind (n : Nesting) (ts : List Token) : Nesting := ts.foldl step n

/-- What is pending at each of some tokens, and behind the last. -/
def along (n : Nesting) (ts : List Token) : List Nesting := ts.scanl step n

/-- At no token, nor behind the last, more frames are pending than the budget has. -/
def Fits (budget : Nat) (n : Nesting) (ts : List Token) : Prop :=
  ∀ m ∈ n.along ts, m.frames ≤ budget

instance (budget : Nat) (n : Nesting) (ts : List Token) : Decidable (Fits budget n ts) :=
  inferInstanceAs (Decidable (∀ m ∈ n.along ts, m.frames ≤ budget))

/-- An expression of the category can begin. Only an operand can have operators pending in front of
it. -/
def Begins (c : Category) (n : Nesting) : Prop :=
  n.turn = .operand ∧ (c.operators ≠ [] ∨ c = .assignment → n.here.operators = 0)

/-- What is pending behind an expression of a category that began with `n`. The signs of an
assignment stay pending up to the token that ends it. -/
def Ends : Category → Nesting → Nesting → Prop
  | .assignment, n, m => m.around = n.around
  | _, n, m => m = n.ended

/-! ## §2 The frames of each step -/

variable {n : Nesting} {t : Token}

theorem seven_le_frames (n : Nesting) : 7 ≤ n.frames := by
  simp only [frames, Pending.framesOfAll, Pending.frames]
  omega

theorem frames_ended_le (n : Nesting) : n.ended.frames ≤ n.frames := by
  simp only [frames, Pending.framesOfAll, Pending.frames, ended]
  omega

theorem frames_prefixed (n : Nesting) : n.prefixed.frames = n.frames + 1 := by
  simp only [frames, Pending.framesOfAll, Pending.frames, prefixed]
  omega

theorem frames_assigned (idle : n.here.operators = 0) :
    n.ended.assigned.frames = n.frames + 1 := by
  simp only [frames, Pending.framesOfAll, Pending.frames, assigned, ended, idle]
  omega

theorem frames_opened (n : Nesting) : n.opened.frames = n.frames + 7 := by
  simp only [frames, Pending.framesOfAll, Pending.frames, opened]
  omega

theorem step_stop (n : Nesting) (isStop : t.kind = .semicolon) : n.step t = start := by
  rw [step, isStop]

/-- Behind a word that starts a statement nothing is left of what was pending before it. -/
theorem step_of_startsStatement (h : t.kind.startsStatement = true) (n m : Nesting) :
    n.step t = m.step t := by
  unfold step
  revert h
  cases t.kind <;> first | exact fun _ => rfl | exact fun h => absurd h (by decide)

/-- An operator between two operands leaves the expression as it was before the first of them. -/
theorem step_operator {c : Category} (turn : n.turn = .operand) (idle : n.here.operators = 0)
    (isOperator : t.kind ∈ c.operators) : n.ended.step t = n := by
  have back : n.ended.joined = n := by
    obtain ⟨⟨signs, operators⟩, around, _⟩ := n
    subst turn idle
    rfl
  have same : n.ended.step t = n.ended.joined := by
    unfold step
    revert isOperator
    cases c <;> cases t.kind <;>
      first | exact fun _ => rfl | exact fun h => absurd h (by decide)
  rw [same, back]

theorem step_prefix (turn : n.turn = .operand) (isPrefix : t.kind ∈ Parser.prefixes) :
    n.step t = n.prefixed := by
  have kinds : t.kind = .bang ∨ t.kind = .minus := by simpa [Parser.prefixes] using isPrefix
  rcases kinds with h | h <;> simp [step, h, turn]

theorem step_constant {v : Value} (isConstant : t.constant? = some v) : n.step t = n.ended := by
  have kinds := Token.kind_of_constant? isConstant
  simp only [List.mem_cons, List.not_mem_nil, or_false] at kinds
  rcases kinds with h | h | h | h | h <;> rw [step, h]

theorem step_name (turn : n.turn = .operand) (isName : t.kind = .name) : n.step t = n.ended := by
  simp [step, isName, turn]

theorem step_equal (isEqual : t.kind = .equal) : n.ended.step t = n.ended.assigned := by
  simp [step, isEqual, ended]

theorem step_opening (isOpening : t.kind = .leftParen) : n.step t = n.opened := by
  rw [step, isOpening]

/-- A closing parenthesis leaves an operand of the expression around it. -/
theorem step_closing {m : Nesting} (isClosing : t.kind = .rightParen)
    (inside : m.around = n.opened.around) : m.step t = n.ended := by
  have inside : m.around = n.here :: n.around := inside
  rw [step, isClosing]
  simp only [closed, inside]
  rfl

/-! ## §3 Tokens that fit a budget -/

variable {budget : Nat} {ts us : List Token}

theorem fits_nil : Fits budget n [] ↔ n.frames ≤ budget := by
  simp [Fits, along]

theorem fits_cons : Fits budget n (t :: ts) ↔ n.frames ≤ budget ∧ Fits budget (n.step t) ts := by
  simp [Fits, along, List.scanl_cons]

theorem Fits.frames_le (h : Fits budget n ts) : n.frames ≤ budget := by
  cases ts with
  | nil => exact fits_nil.mp h
  | cons t ts => exact (fits_cons.mp h).1

theorem fits_append :
    Fits budget n (ts ++ us) ↔ Fits budget n ts ∧ Fits budget (n.behind ts) us := by
  induction ts generalizing n with
  | nil =>
    rw [fits_nil]
    exact ⟨fun h => ⟨h.frames_le, h⟩, fun h => h.2⟩
  | cons t ts ih =>
    rw [List.cons_append, fits_cons, fits_cons, ih, and_assoc]
    rfl

theorem Fits.behind_le (h : Fits budget n ts) : (n.behind ts).frames ≤ budget := by
  rw [← List.append_nil ts, fits_append] at h
  exact fits_nil.mp h.2

/-- What fits behind anything else fits between statements, if it starts a statement. -/
theorem Fits.of_startsStatement (h : Fits budget n (t :: ts))
    (starts : t.kind.startsStatement = true) : Fits budget start (t :: ts) := by
  rw [fits_cons] at h ⊢
  refine ⟨Nat.le_trans (seven_le_frames n) h.1, ?_⟩
  rw [step_of_startsStatement starts start n]
  exact h.2

/-- Skipping stops where nothing is pending any more. -/
theorem Fits.skipFrom {last : Token} (ahead : List Token) :
    ∀ {n : Nesting} {latest : Token} {passed : List Token}, Fits budget n ahead →
      (latest.kind = .semicolon → n = start) →
      Fits budget start (Cursor.skipFrom last (latest :: passed) ahead).ahead := by
  induction ahead with
  | nil =>
    intro n latest passed fits _
    exact fits_nil.mpr (Nat.le_trans (seven_le_frames n) fits.frames_le)
  | cons t rest ih =>
    intro n latest passed fits stopped
    rw [Cursor.skipFrom]
    split
    · rename_i boundary
      have cases : latest.kind = .semicolon ∨ t.kind.startsStatement = true := by
        simpa [Cursor.atBoundary, Cursor.atEnd, Cursor.previous, Cursor.peek] using boundary
      rcases cases with isStop | starts
      · rwa [stopped isStop] at fits
      · exact fits.of_startsStatement starts
    · exact ih (fits_cons.mp fits).2 (step_stop n)

theorem Fits.synchronize {c : Cursor} (fits : Fits budget n c.ahead) :
    Fits budget start c.synchronize.ahead := by
  obtain ⟨passed, ahead, last⟩ := c
  cases ahead with
  | nil => exact fits_nil.mpr (Nat.le_trans (seven_le_frames n) fits.frames_le)
  | cons t rest => exact Fits.skipFrom rest (fits_cons.mp fits).2 (step_stop n)

end Nesting

end Scriptlet
