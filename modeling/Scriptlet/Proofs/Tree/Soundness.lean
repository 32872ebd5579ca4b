/-
Scriptlet.Proofs.Tree.Soundness — what the parser reads is what the grammar derives.

Whatever tokens are ahead, an expression that is read has the tree that the
grammar gives to the tokens passed, and the equals signs reported are those that
the derivation carries along. Where reading unwinds instead, nothing but the
start of a statement has been passed, and the last diagnostic is about the token
ahead.

The functions of the parser call each other with a smaller budget, so one
induction on the budget covers them all. Within one level of operators the loop
has its own invariant: what has been read so far is an expression of that level.

  §1 The functions for the categories.
  §2 Loops over operators.
  §3 Expressions.
  §4 Statements.
-/
import Scriptlet.Proofs.Tree.Steps
import Scriptlet.Proofs.Tree.Grammar

namespace Scriptlet

open Token (Kind)

/-! ## §1 The functions for the categories -/

namespace Category

/-- The levels of operators that an expression of a category may have. -/
def levels : Category → List (List Kind)
  | .assignment | .equality => Parser.levels
  | .comparison => Parser.levels.drop 1
  | .term => Parser.levels.drop 2
  | .factor => Parser.levels.drop 3
  | .unary | .primary => []

/-- The function that reads an expression of a category. -/
def read : Category → Nat → Parser.Action Expr
  | .assignment, budget => Parser.expression budget
  | .primary, budget => Parser.primary budget
  | c, budget => Parser.layer budget c.levels

theorem read_zero (c : Category) : c.read 0 = Parser.refuse .nestingTooDeep := by
  cases c <;> simp only [read, Parser.expression, Parser.layer, Parser.primary]

/-- On a level of operators, reading an expression is reading a chain of the next tighter ones. -/
theorem read_succ_of_operators {c d : Category} (next : c.tighter = some d)
    (h : c.operators ≠ []) (budget : Nat) :
    c.read (budget + 1) = Parser.chain c.operators (d.read budget) := by
  cases c <;> cases next <;> first | exact absurd rfl h | rfl

end Category

namespace Parser

variable {s s' : State} {ts signs : List Token}

/-! ## §2 Loops over operators -/

theorem Inside.of_derives {c : Category} {e : Expr} (h : Derives c ts e signs) :
    Inside ts signs :=
  ⟨fun _ ht => h.kind_ne_semicolon ht, h.mem_of_mem_signs⟩

/-- The loop goes on from an expression of its level and ends with one. -/
theorem chainOnto_ends {c d : Category} (next : c.tighter = some d) {operand : Action Expr}
    (h : ∀ s, Ends (Derives d) s (operand s)) :
    ∀ (rounds : List Token) {ts signs : List Token} {left : Expr} {s s' : State},
      Derives c ts left signs → Step s ts (misplaced signs) s' →
        Ends (Derives c) s (chainOnto c.operators operand rounds left s')
  | [], _, _, _, _, _, derived, step => .ok derived step
  | _ :: rounds, ts, signs, left, s, s', derived, step => by
      rw [chainOnto]
      rcases accept?_cases c.operators s' with ⟨t, rest, head, hk, ha⟩ | ⟨-, ha⟩
      · rw [bind_ok ha]
        dsimp only
        have noStop : t.kind ≠ .semicolon := by
          intro hs
          rw [hs] at hk
          exact absurd (Derives.operator_mem_vocabulary hk) (by decide)
        have ends := h s'.pass
        generalize hr : operand s'.pass = r at ends
        cases ends with
        | ok allowed step' =>
          rw [bind_ok hr]
          refine chainOnto_ends next h rounds (.binary next hk derived allowed) ?_
          rw [misplaced_append]
          exact step.trans ((step_pass head).trans step')
        | error inside unwinding step' =>
          rw [bind_error hr]
          exact .after step (.of_derives derived)
            (.pass head noStop (.error inside unwinding step'))
      · rw [bind_ok ha]
        exact .ok derived step

theorem chain_ends {c d : Category} (next : c.tighter = some d) {operand : Action Expr}
    (h : ∀ s, Ends (Derives d) s (operand s)) (s : State) :
    Ends (Derives c) s (chain c.operators operand s) := by
  have ends := h s
  rw [chain]
  generalize hr : operand s = r at ends
  cases ends with
  | ok allowed step =>
    rw [bind_ok hr]
    exact chainOnto_ends next h _ (.descend next allowed) step
  | error inside unwinding step =>
    rw [bind_error hr]
    exact .error inside unwinding step

/-! ## §3 Expressions -/

theorem unary_ends {budget : Nat} (hu : ∀ s, Ends (Derives .unary) s (layer budget [] s))
    (hp : ∀ s, Ends (Derives .primary) s (primary budget s)) (s : State) :
    Ends (Derives .unary) s (layer (budget + 1) [] s) := by
  rw [layer]
  refine .accept? (by decide) ?_ ?_
  · intro t hk
    refine .bind (hu s.pass) .of_derives ?_
    intro ts e signs s' inner
    refine .value ?_
    rw [List.append_nil, List.append_nil]
    exact .unary (by simpa [prefixes] using hk) inner
  · exact (hp s).mono (.descend rfl)

/-- The alternatives for a primary expression are tried in order. -/
theorem primary_ends {budget : Nat} (h : ∀ s, Ends (Derives .assignment) s (expression budget s))
    (s : State) : Ends (Derives .primary) s (primary (budget + 1) s) := by
  rw [primary]
  refine .accept? (by decide) (fun t hk => .value (.literal ?_)) ?_
  · rw [List.mem_singleton] at hk
    rw [Token.constant?, hk]
  refine .accept? (by decide) (fun t hk => .value (.literal ?_)) ?_
  · rw [List.mem_singleton] at hk
    rw [Token.constant?, hk]
  refine .accept? (by decide) (fun t hk => .value (.literal ?_)) ?_
  · rw [List.mem_singleton] at hk
    rw [Token.constant?, hk]
  refine .accept? (by decide) (fun t hk => .value (.literal ?_)) ?_
  · have hk : t.kind = .number ∨ t.kind = .string := by simpa using hk
    rcases hk with hk | hk <;> rw [Token.constant?, hk]
  refine .accept? (by decide) (fun t hk => .value (.var ?_)) ?_
  · rwa [List.mem_singleton] at hk
  refine .accept? (by decide) (fun t hk => ?_) ?_
  · rw [List.mem_singleton] at hk
    refine .bind (h s.pass) .of_derives ?_
    intro ts e signs s' inner
    refine .expect (by decide) (fun closing hc => ?_) s'
    rw [List.append_nil]
    exact .group hk inner hc
  · exact .refuse (by decide) s

/-- An equals sign behind the left side makes an assignment, or is reported. -/
theorem expression_ends {budget : Nat}
    (hl : ∀ s, Ends (Derives .equality) s (layer budget levels s))
    (h : ∀ s, Ends (Derives .assignment) s (expression budget s)) (s : State) :
    Ends (Derives .assignment) s (expression (budget + 1) s) := by
  rw [expression]
  refine .bind (hl s) .of_derives ?_
  intro ls left signs s₁ target
  refine .accept? (by decide) (fun sign hk => ?_) ?_
  · rw [List.mem_singleton] at hk
    refine .bind (h s₁.pass) .of_derives ?_
    intro rs value more s₂ right
    split
    · rename_i name
      obtain ⟨rfl, rfl, isName⟩ := target.eq_of_var
      refine .value ?_
      rw [List.append_nil, List.append_nil]
      exact .assign isName hk right
    · rename_i noVar
      rw [bind_ok (report_eq sign .invalidTarget s₂)]
      have step : Step s₂ [] (misplaced [sign]) (s₂.note sign .invalidTarget) :=
        step_note s₂ sign .invalidTarget
      refine .ok ?_ step
      rw [List.append_nil, ← List.append_assoc]
      exact .misassign target (fun name he => noVar name he) hk right
  · refine .value ?_
    rw [List.append_nil, List.append_nil]
    exact .descend rfl target

/-- All functions for expressions, by induction on the budget. -/
theorem read_ends (budget : Nat) : ∀ (c : Category) (s : State),
    Ends (Derives c) s (c.read budget s) := by
  induction budget with
  | zero =>
    intro c s
    rw [c.read_zero]
    exact .refuse (by decide) s
  | succ budget ih =>
    intro c s
    cases c with
    | assignment => exact expression_ends (ih .equality) (ih .assignment) s
    | unary => exact unary_ends (ih .unary) (ih .primary) s
    | primary => exact primary_ends (ih .assignment) s
    | equality | comparison | term | factor =>
      rw [Category.read_succ_of_operators rfl (by decide)]
      exact chain_ends rfl (ih _) s

/-! ## §4 Statements -/

theorem printStatement_ends (budget : Nat) (s : State) :
    Ends (fun ts stmt signs => ∀ word : Token, word.kind = .printWord →
      Declares (word :: ts) stmt signs) s (printStatement budget s) := by
  rw [printStatement]
  refine .bind (read_ends budget .assignment s) .of_derives ?_
  intro ts e signs s' value
  refine .expect (by decide) (fun stop hs word hw => ?_) s'
  rw [List.append_nil]
  exact .print hw value hs

theorem expressionStatement_ends (budget : Nat) (s : State) :
    Ends Declares s (expressionStatement budget s) := by
  rw [expressionStatement]
  refine .bind (read_ends budget .assignment s) .of_derives ?_
  intro ts e signs s' inner
  refine .expect (by decide) (fun stop hs => ?_) s'
  rw [List.append_nil]
  exact .expression inner hs

theorem statement_ends (budget : Nat) (s : State) : Ends Declares s (statement budget s) := by
  rw [statement]
  refine .accept? (by decide) (fun word hk => ?_) (expressionStatement_ends budget s)
  rw [List.mem_singleton] at hk
  exact (printStatement_ends budget s.pass).mono (fun h => h word hk)

theorem varStatement_ends (budget : Nat) (s : State) :
    Ends (fun ts stmt signs => ∀ word : Token, word.kind = .varWord →
      Declares (word :: ts) stmt signs) s (varStatement budget s) := by
  rw [varStatement]
  rcases expect_cases .name .missingName s with ⟨name, rest, head, isName, hx⟩ | hx
  · rw [bind_ok hx]
    refine .pass head (by simp [isName]) ?_
    refine .accept? (by decide) (fun sign hk => ?_) ?_
    · rw [List.mem_singleton] at hk
      show Ends _ _ (((some <$> expression budget) >>= fun initial =>
        expect .semicolon .unfinishedVar >>= fun _ => pure (Stmt.var name initial)) _)
      rw [bind_map_left]
      refine .bind (read_ends budget .assignment _) .of_derives ?_
      intro ts e signs s' initial
      refine .expect (by decide) (fun stop hs word hw => ?_) s'
      rw [List.append_nil]
      exact .varWith hw isName hk initial hs
    · show Ends _ _ ((expect .semicolon .unfinishedVar >>= fun _ => pure (Stmt.var name none)) _)
      exact .expect (by decide) (fun stop hs word hw => .var hw isName hs) _
  · rw [bind_error hx]
    exact .error .nil (by decide) (step_note s _ _)

/-- A declaration or another statement, before what unwinds is caught. -/
def attempt (budget : Nat) : Action Stmt := do
  if (← accept? [.varWord]).isSome then varStatement budget else statement budget

theorem attempt_ends (budget : Nat) (s : State) : Ends Declares s (attempt budget s) := by
  rw [attempt]
  refine .accept? (by decide) (fun word hk => ?_) (statement_ends budget s)
  rw [List.mem_singleton] at hk
  exact (varStatement_ends budget s.pass).mono (fun h => h word hk)

/-- What unwinds is caught: there is no statement then, and reading goes on at a boundary. -/
theorem declaration_eq (budget : Nat) (s : State) :
    declaration budget s =
      match attempt budget s with
      | .ok stmt s' => .ok (some stmt) s'
      | .error _ s' => .ok none { s' with cursor := s'.cursor.synchronize } := by
  rw [attempt, declaration]
  simp only [bind, EStateM.bind, tryCatch, tryCatchThe, MonadExceptOf.tryCatch]
  delta EStateM.tryCatch
  rcases accept?_cases [.varWord] s with ⟨t, rest, head, hk, h⟩ | ⟨-, h⟩
  · simp only [h, Option.isSome_some, if_true, EStateM.bind]
    cases varStatement budget s.pass <;> rfl
  · simp only [h, Option.isSome_none, Bool.false_eq_true, if_false, EStateM.bind]
    cases statement budget s <;> rfl

/-- Reading a declaration never unwinds, and it passes a token if one is ahead. -/
theorem declaration_step (budget : Nat) (s : State) :
    ∃ entry s' ts ds, declaration budget s = .ok entry s' ∧ Step s ts ds s' ∧
      (s.cursor.ahead ≠ [] → ts ≠ []) := by
  have ends := attempt_ends budget s
  rw [declaration_eq]
  generalize attempt budget s = r at ends
  cases ends with
  | ok declared step => exact ⟨_, _, _, _, rfl, step, fun _ => declared.ne_nil⟩
  | @error ts _ _ s' _ _ step =>
    obtain ⟨us, skip, passes⟩ := step_synchronize s'
    refine ⟨_, _, ts ++ us, _, rfl, step.trans skip, fun more none => ?_⟩
    obtain ⟨rfl, rfl⟩ := List.append_eq_nil_iff.mp none
    rw [step.ahead] at more
    exact passes more rfl

end Parser

end Scriptlet
