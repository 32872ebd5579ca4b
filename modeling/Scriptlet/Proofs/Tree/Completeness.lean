/-
Scriptlet.Proofs.Tree.Completeness — what the grammar derives, the parser reads.

If the tokens ahead begin with an expression of the grammar, and the token behind
it could not continue the expression, then the parser reads exactly that
expression, unless its nesting is too deep. The induction is on the derivation.

A derivation of a chain of operators recurs on the left while the parser goes
from left to right. The two meet in the loop: behind the left part of a chain the
parser is in the loop, with the left part as its value.

  §1 What could continue an expression.
  §2 The loop over operators, without a bound on its rounds.
  §3 Expressions.
  §4 Statements.
-/
import Scriptlet.Proofs.Tree.Soundness

namespace Scriptlet

open Token (Kind)

/-! ## §1 What could continue an expression -/

/-- The kinds of token that continue an expression of a category when they stand behind one. -/
def Category.continuing : Category → List Kind
  | .assignment => .equal :: Parser.levels.flatten
  | c => c.levels.flatten

namespace Category

variable {c d : Category}

/-- What continues an operand continues the chain that the operand is in. -/
theorem continuing_subset (next : c.tighter = some d) : ∀ k ∈ d.continuing, k ∈ c.continuing := by
  cases c <;> cases next <;> decide

theorem operators_subset : ∀ k ∈ c.operators, k ∈ c.continuing := by
  cases c <;> decide

/-- An operator of a level ends the operand before it. -/
theorem not_continuing_of_operator (next : c.tighter = some d) :
    ∀ k ∈ c.operators, k ∉ d.continuing := by
  cases c <;> cases next <;> decide

end Category

namespace Parser

/-- No token of one of the given kinds is ahead. -/
def Free (kinds : List Kind) (s : State) : Prop := ∀ k ∈ kinds, s.cursor.sees k = false

variable {s s' : State} {ts : List Token}

theorem Free.nil : Free [] s := fun _ hk => nomatch hk

theorem Free.of_head {kinds : List Kind} {t : Token} {rest : List Token}
    (head : s.cursor.ahead = t :: rest) (hk : t.kind ∉ kinds) : Free kinds s :=
  not_sees_of_head head hk

theorem bind_accept?_skip {α : Type} {kinds : List Kind} {f : Option Token → Action α}
    (free : Free kinds s) : (accept? kinds >>= f) s = f none s :=
  bind_ok (accept?_of_not_sees free)

theorem bind_accept?_take {α : Type} {kinds : List Kind} {f : Option Token → Action α} {t : Token}
    {rest : List Token} (head : s.cursor.ahead = t :: rest) (hk : t.kind ∈ kinds) :
    (accept? kinds >>= f) s = f (some t) s.pass :=
  bind_ok (accept?_of_mem head hk)

theorem bind_accept?_head {α : Type} {kinds : List Kind} {f : Option Token → Action α} {t : Token}
    {rest : List Token} (head : s.cursor.ahead = t :: rest) :
    (accept? kinds >>= f) s = if t.kind ∈ kinds then f (some t) s.pass else f none s := by
  by_cases hk : t.kind ∈ kinds
  · rw [if_pos hk, bind_accept?_take head hk]
  · rw [if_neg hk, bind_accept?_skip (.of_head head hk)]

/-! ## §2 The loop over operators -/

/-- More rounds than there are tokens change nothing. -/
theorem chainOnto_rounds {operators : List Kind} {operand : Action Expr}
    (h : ∀ {s a s'}, operand s = .ok a s' → s'.cursor.ahead.length ≤ s.cursor.ahead.length) :
    ∀ (rounds rounds' : List Token) (left : Expr) (s : State),
      s.cursor.ahead.length ≤ rounds.length → s.cursor.ahead.length ≤ rounds'.length →
      chainOnto operators operand rounds left s = chainOnto operators operand rounds' left s := by
  have stop : ∀ (rounds : List Token) (left : Expr) (s : State), s.cursor.ahead = [] →
      chainOnto operators operand rounds left s = .ok left s := by
    intro rounds left s hs
    cases rounds with
    | nil => rfl
    | cons _ _ => rw [chainOnto, bind_accept?_skip (fun k _ => sees_nil hs k)]; rfl
  intro rounds
  induction rounds with
  | nil =>
    intro rounds' left s hr _
    have hs : s.cursor.ahead = [] := List.eq_nil_of_length_eq_zero (Nat.le_zero.mp hr)
    rw [stop _ _ _ hs, stop _ _ _ hs]
  | cons _ rounds ih =>
    intro rounds' left s hr hr'
    cases rounds' with
    | nil =>
      have hs : s.cursor.ahead = [] := List.eq_nil_of_length_eq_zero (Nat.le_zero.mp hr')
      rw [stop _ _ _ hs, stop _ _ _ hs]
    | cons _ rounds' =>
      rw [chainOnto, chainOnto]
      rcases accept?_cases operators s with ⟨t, rest, head, hk, ha⟩ | ⟨-, ha⟩
      · rw [bind_ok ha, bind_ok ha]
        dsimp only
        cases hr₁ : operand s.pass with
        | error c s₁ => rw [bind_error hr₁, bind_error hr₁]
        | ok right s₁ =>
          rw [bind_ok hr₁, bind_ok hr₁]
          have hl := h hr₁
          rw [ahead_pass head] at hl
          rw [head] at hr hr'
          simp only [List.length_cons] at hr hr'
          exact ih rounds' _ s₁ (by omega) (by omega)
      · rw [bind_ok ha, bind_ok ha]

/-- The loop, for as long as there are operators of its level. -/
def chainLoop (operators : List Kind) (operand : Action Expr) (left : Expr) : Action Expr := do
  chainOnto operators operand (← get).cursor.ahead left

theorem chainLoop_of_free {operators : List Kind} {operand : Action Expr} {left : Expr}
    (free : Free operators s) : chainLoop operators operand left s = .ok left s := by
  show chainOnto operators operand s.cursor.ahead left s = .ok left s
  cases s.cursor.ahead with
  | nil => rfl
  | cons _ _ => rw [chainOnto, bind_accept?_skip free]; rfl

theorem chainLoop_of_operator {operators : List Kind} {operand : Action Expr} {left : Expr}
    {t : Token} {rest : List Token}
    (h : ∀ {s a s'}, operand s = .ok a s' → s'.cursor.ahead.length ≤ s.cursor.ahead.length)
    (head : s.cursor.ahead = t :: rest) (hk : t.kind ∈ operators) :
    chainLoop operators operand left s =
      (operand >>= fun right => chainLoop operators operand (.binary left t right)) s.pass := by
  show chainOnto operators operand s.cursor.ahead left s = _
  rw [head, chainOnto, bind_accept?_take head hk]
  dsimp only
  cases hr : operand s.pass with
  | error c s₁ => rw [bind_error hr, bind_error hr]
  | ok right s₁ =>
    rw [bind_ok hr, bind_ok hr]
    refine chainOnto_rounds h _ _ _ s₁ ?_ (Nat.le_refl _)
    have hl := h hr
    rwa [ahead_pass head] at hl

/-! ## §3 Expressions -/

/-- What reading an expression of a category goes on with behind a first part of it. -/
def resume (c : Category) (budget : Nat) (e : Expr) : Action Expr :=
  match c.tighter with
  | some d => chainLoop c.operators (d.read budget) e
  | none => pure e

theorem resume_of_free {c : Category} {budget : Nat} {e : Expr} (free : Free c.continuing s) :
    resume c budget e s = .ok e s := by
  cases next : c.tighter with
  | none => simp only [resume, next]; rfl
  | some d =>
    simp only [resume, next]
    exact chainLoop_of_free (fun k hk => free k (Category.operators_subset k hk))

theorem read_length_le {c : Category} {budget : Nat} {e : Expr}
    (h : c.read budget s = .ok e s') : s'.cursor.ahead.length ≤ s.cursor.ahead.length := by
  have ends := read_ends budget c s
  rw [h] at ends
  cases ends with
  | ok _ step => exact step.length_le

/-- Behind the tokens `ts`, reading an expression of category `c` goes on with `e` as what has been
read, if no token is there that continues an operand. -/
def Resumes (c : Category) (ts : List Token) (e : Expr) (signs : List Token) : Prop :=
  ∀ (budget : Nat) (s s' : State), Step s ts (misplaced signs) s' →
    (∀ k ∈ c.continuing, k ∉ c.operators → s'.cursor.sees k = false) →
    Agrees (c.read (budget + 1) s) (resume c budget e s')

namespace Resumes

variable {c d : Category} {e left right value : Expr} {ls rs signs more : List Token}

theorem read (h : Resumes c ts e signs) {budget : Nat} (step : Step s ts (misplaced signs) s')
    (free : Free c.continuing s') : Agrees (c.read budget s) (.ok e s') := by
  cases budget with
  | zero =>
    rw [c.read_zero]
    exact .inr ⟨_, rfl⟩
  | succ budget =>
    have done : resume c budget e s' = .ok e s' := resume_of_free free
    rw [← done]
    exact h budget s s' step (fun k hk _ => free k hk)

/-- What does not continue a chain, but for its operators, does not continue an operand of it. -/
theorem free_operand (next : c.tighter = some d)
    (free : ∀ k ∈ c.continuing, k ∉ c.operators → s'.cursor.sees k = false) :
    Free d.continuing s' := fun k hk =>
  free k (Category.continuing_subset next k hk)
    (fun ho => Category.not_continuing_of_operator next k ho hk)

/-- An operand of a chain is read, and then its operators. -/
theorem descend_chain (next : c.tighter = some d) (hc : c.operators ≠ [])
    (h : Resumes d ts e signs) : Resumes c ts e signs := by
  intro budget s s' step free
  rw [Category.read_succ_of_operators next hc, chain]
  refine Agrees.bind (h.read step (free_operand next free)) ?_
  simp only [resume, next]
  exact .refl _

/-- An expression without an assignment, where no equals sign follows. -/
theorem descend_assignment (h : Resumes .equality ts e signs) :
    Resumes .assignment ts e signs := by
  intro budget s s' step free
  have free' : Free Category.equality.continuing s' := fun k hk =>
    free k (Category.continuing_subset rfl k hk) (by simp [Category.operators])
  have free'' : Free [.equal] s' := fun k hk =>
    free k (by rw [List.mem_singleton.mp hk]; decide) (by simp [Category.operators])
  show Agrees (expression (budget + 1) s) _
  rw [expression]
  refine Agrees.bind (h.read step free') ?_
  rw [bind_accept?_skip free'']
  exact .inl (chainLoop_of_free .nil).symm

/-- An operand without an operator in front. -/
theorem descend_unary (inner : Derives .primary ts e signs) (h : Resumes .primary ts e signs) :
    Resumes .unary ts e signs := by
  intro budget s s' step _
  obtain ⟨t, rest, rfl, ht⟩ := inner.exists_head_of_primary
  have hk : t.kind ∉ prefixes := by
    intro hp
    revert ht hp
    cases t.kind <;> decide
  show Agrees (layer (budget + 1) [] s) _
  rw [layer, bind_accept?_skip (.of_head step.ahead hk)]
  have done : resume .unary budget e s' = .ok e s' := resume_of_free .nil
  rw [done]
  exact h.read step .nil

theorem descend (next : c.tighter = some d) (inner : Derives d ts e signs)
    (h : Resumes d ts e signs) : Resumes c ts e signs := by
  cases c with
  | primary => cases next
  | assignment => cases next; exact h.descend_assignment
  | unary => cases next; exact descend_unary inner h
  | equality | comparison | term | factor => exact descend_chain next (by decide) h

/-- Behind the left part of a chain comes an operator, and then the right operand. -/
theorem binary {operator : Token} (next : c.tighter = some d)
    (isOperator : operator.kind ∈ c.operators) (hl : Resumes c ls left signs)
    (hr : Resumes d rs right more) :
    Resumes c (ls ++ operator :: rs) (.binary left operator right) (signs ++ more) := by
  intro budget s s' step free
  rw [misplaced_append] at step
  obtain ⟨s₁, stepl, stepr⟩ := step.split
  have free₁ : ∀ k ∈ c.continuing, k ∉ c.operators → s₁.cursor.sees k = false := by
    intro k _ ho
    rw [Bool.eq_false_iff]
    intro hs
    rw [← (sees_iff stepr.ahead k).mp hs] at ho
    exact ho isOperator
  -- the parser is now in the loop, with the left part as its value and the operator ahead
  refine (hl budget s s₁ stepl free₁).trans ?_
  simp only [resume, next]
  rw [chainLoop_of_operator read_length_le stepr.ahead isOperator]
  exact Agrees.bind (hr.read stepr.tail (free_operand next free)) (.refl _)

/-- An operator in front is passed, and then its operand. -/
theorem unary {operator : Token} (isOperator : operator.kind = .bang ∨ operator.kind = .minus)
    (h : Resumes .unary ts e signs) :
    Resumes .unary (operator :: ts) (.unary operator e) signs := by
  intro budget s s' step _
  have hk : operator.kind ∈ prefixes := by simpa [prefixes] using isOperator
  have done : resume .unary budget (.unary operator e) s' = .ok (.unary operator e) s' :=
    resume_of_free .nil
  rw [done]
  show Agrees (layer (budget + 1) [] s) _
  rw [layer, bind_accept?_take step.ahead hk]
  exact Agrees.bind (h.read step.tail .nil) (.refl _)

/-- The kind of a literal token settles which alternative reads it. -/
theorem literal {t : Token} {v : Value} (isConstant : t.constant? = some v) :
    Resumes .primary [t] (.literal v) [] := by
  intro budget s s' step _
  have hs : s.pass = s' := (step_pass step.ahead).unique step
  refine .inl ?_
  show primary (budget + 1) s = .ok (.literal v) s'
  rw [← hs]
  have hk := Token.kind_of_constant? isConstant
  simp only [List.mem_cons, List.not_mem_nil, or_false] at hk
  rcases hk with hk | hk | hk | hk | hk <;>
    simp [primary, bind_accept?_head step.ahead, hk, Token.constant?] at isConstant ⊢ <;>
    subst isConstant <;> rfl

theorem var {name : Token} (isName : name.kind = .name) :
    Resumes .primary [name] (.var name) [] := by
  intro budget s s' step _
  have hs : s.pass = s' := (step_pass step.ahead).unique step
  refine .inl ?_
  show primary (budget + 1) s = .ok (.var name) s'
  rw [← hs]
  simp [primary, bind_accept?_head step.ahead, isName]
  rfl

/-- A closing parenthesis ends the expression before it. -/
theorem group {opening closing : Token} (isOpening : opening.kind = .leftParen)
    (h : Resumes .assignment ts e signs) (isClosing : closing.kind = .rightParen) :
    Resumes .primary (opening :: (ts ++ [closing])) (.group e) signs := by
  intro budget s s' step _
  have step' : Step s.pass (ts ++ [closing]) (misplaced signs ++ []) s' := by
    rw [List.append_nil]
    exact step.tail
  obtain ⟨s₁, inner, last⟩ := step'.split
  have free : Free Category.assignment.continuing s₁ :=
    .of_head last.ahead (by rw [isClosing]; decide)
  have hs : s₁.pass = s' := (step_pass last.ahead).unique last
  show Agrees (primary (budget + 1) s) (.ok (.group e) s')
  have hp : primary (budget + 1) s =
      (expression budget >>= fun inner =>
        expect .rightParen .unclosedGroup >>= fun _ => pure (.group inner)) s.pass := by
    simp [primary, bind_accept?_head step.ahead, isOpening]
  rw [hp]
  refine Agrees.bind (h.read inner free) (.inl ?_)
  rw [bind_ok (expect_of_kind last.ahead isClosing), hs]
  rfl

/-- A name is also an expression of each category before the assignment. -/
theorem name_equality {name : Token} (isName : name.kind = .name) :
    Resumes .equality [name] (.var name) [] := by
  have unary : Resumes .unary [name] (.var name) [] := descend_unary (.var isName) (var isName)
  have factor : Resumes .factor [name] (.var name) [] := descend_chain rfl (nomatch ·) unary
  have term : Resumes .term [name] (.var name) [] := descend_chain rfl (nomatch ·) factor
  have comparison : Resumes .comparison [name] (.var name) [] :=
    descend_chain rfl (nomatch ·) term
  exact descend_chain rfl (nomatch ·) comparison

/-- Behind the left side of an assignment, the sign is passed and the right side is read. -/
theorem expression_of_sign {sign : Token} (isEqual : sign.kind = .equal) {s₁ s₂ : State}
    {budget : Nat} {r : Result Expr}
    (next : (match left with
      | .var name => pure (.assign name value)
      | _ => do
        report sign .invalidTarget
        return left : Action Expr) s₂ = r)
    (hl : Resumes .equality ls left signs) (hr : Resumes .assignment rs value more)
    (stepl : Step s ls (misplaced signs) s₁) (stepr : Step s₁ (sign :: rs) (misplaced more) s₂)
    (free : Free Category.assignment.continuing s₂) :
    Agrees (expression (budget + 1) s) r := by
  have free₁ : Free Category.equality.continuing s₁ :=
    .of_head stepr.ahead (by rw [isEqual]; decide)
  rw [expression]
  refine Agrees.bind (hl.read stepl free₁) ?_
  rw [bind_accept?_take stepr.ahead (by rw [isEqual]; decide)]
  exact Agrees.bind (hr.read stepr.tail free) (.inl next)

theorem assign {name sign : Token} (isName : name.kind = .name) (isEqual : sign.kind = .equal)
    (h : Resumes .assignment ts value signs) :
    Resumes .assignment (name :: sign :: ts) (.assign name value) signs := by
  intro budget s s' step free
  have free' : Free Category.assignment.continuing s' := fun k hk => free k hk (nomatch ·)
  rw [resume_of_free free']
  exact expression_of_sign isEqual rfl (name_equality isName) h (step_pass step.ahead) step.tail
    free'

theorem misassign {sign : Token} (noVar : ∀ name, left ≠ .var name) (isEqual : sign.kind = .equal)
    (hl : Resumes .equality ls left signs) (hr : Resumes .assignment rs value more) :
    Resumes .assignment (ls ++ sign :: rs) left (signs ++ more ++ [sign]) := by
  intro budget s s' step free
  rw [List.append_assoc, misplaced_append] at step
  obtain ⟨s₁, stepl, stepr⟩ := step.split
  have stepr' : Step s₁ (sign :: rs ++ []) (misplaced more ++ misplaced [sign]) s' := by
    rw [List.append_nil, ← misplaced_append]
    exact stepr
  obtain ⟨s₂, right, noted⟩ := stepr'.split
  have hs : s₂.note sign .invalidTarget = s' := (step_note s₂ sign .invalidTarget).unique noted
  subst hs
  have free' : Free Category.assignment.continuing s₂ := fun k hk => free k hk (nomatch ·)
  have done : resume .assignment budget left (s₂.note sign .invalidTarget) = .ok left _ :=
    resume_of_free free'
  rw [done]
  refine expression_of_sign isEqual ?_ hl hr stepl right free'
  cases left with
  | var name => exact absurd rfl (noVar name)
  | _ => rfl

end Resumes

/-- An expression of the grammar is read as its tree, unless its nesting is too deep. -/
theorem resumes_of_derives {c : Category} {e : Expr} {signs : List Token}
    (h : Derives c ts e signs) : Resumes c ts e signs := by
  induction h with
  | descend next inner ih => exact .descend next inner ih
  | assign isName isEqual _ ih => exact .assign isName isEqual ih
  | misassign _ noVar isEqual _ ihl ihr => exact .misassign noVar isEqual ihl ihr
  | binary next isOperator _ _ ihl ihr => exact .binary next isOperator ihl ihr
  | unary isOperator _ ih => exact .unary isOperator ih
  | literal isConstant => exact .literal isConstant
  | var isName => exact .var isName
  | group isOpening _ isClosing ih => exact .group isOpening ih isClosing

/-! ## §4 Statements -/

/-- An expression up to the semicolon behind it, and what is made of it. -/
theorem expression_then_stop {e : Expr} {signs : List Token} {stop : Token} {budget : Nat}
    {c : Complaint} (f : Expr → Stmt) (h : Derives .assignment ts e signs)
    (isStop : stop.kind = .semicolon) (step : Step s (ts ++ [stop]) (misplaced signs) s') :
    Agrees ((do let x ← expression budget; let _ ← expect .semicolon c; pure (f x)) s)
      (.ok (f e) s') := by
  rw [← List.append_nil (misplaced signs)] at step
  obtain ⟨s₁, inner, last⟩ := step.split
  have free : Free Category.assignment.continuing s₁ :=
    .of_head last.ahead (by rw [isStop]; decide)
  refine Agrees.bind ((resumes_of_derives h).read inner free) (.inl ?_)
  rw [bind_ok (expect_of_kind last.ahead isStop), (step_pass last.ahead).unique last]
  rfl

/-- A declaration or another statement of the grammar is read as its tree, unless its nesting is too
deep. -/
theorem attempt_of_declares {stmt : Stmt} {signs : List Token} (budget : Nat)
    (h : Declares ts stmt signs) (step : Step s ts (misplaced signs) s') :
    Agrees (attempt budget s) (.ok stmt s') := by
  cases h with
  | @var word name stop isVar isName isStop =>
    rw [attempt, bind_accept?_take step.ahead (by rw [isVar]; decide)]
    have step₁ := step.tail
    have step₂ := step₁.tail
    show Agrees (varStatement budget s.pass) _
    rw [varStatement, bind_ok (expect_of_kind step₁.ahead isName),
      bind_accept?_skip (.of_head step₂.ahead (by rw [isStop]; decide))]
    refine .inl ?_
    show (expect .semicolon .unfinishedVar >>= fun _ => pure (Stmt.var name none)) _ = _
    rw [bind_ok (expect_of_kind step₂.ahead isStop), (step_pass step₂.ahead).unique step₂]
    rfl
  | @varWith word name sign stop ts e signs isVar isName isEqual initial isStop =>
    rw [attempt, bind_accept?_take step.ahead (by rw [isVar]; decide)]
    have step₁ := step.tail
    have step₂ := step₁.tail
    show Agrees (varStatement budget s.pass) _
    rw [varStatement, bind_ok (expect_of_kind step₁.ahead isName),
      bind_accept?_take step₂.ahead (by rw [isEqual]; decide)]
    show Agrees (((some <$> expression budget) >>= fun initial =>
      expect .semicolon .unfinishedVar >>= fun _ => pure (Stmt.var name initial)) _) _
    rw [bind_map_left]
    exact expression_then_stop (fun x => .var name (some x)) initial isStop step₂.tail
  | @print word stop ts e signs isPrint value isStop =>
    rw [attempt, bind_accept?_skip (.of_head step.ahead (by rw [isPrint]; decide))]
    show Agrees (statement budget s) _
    rw [statement, bind_accept?_take step.ahead (by rw [isPrint]; decide)]
    show Agrees (printStatement budget s.pass) _
    exact expression_then_stop .print value isStop step.tail
  | @expression stop ts e signs inner isStop =>
    obtain ⟨t, rest, rfl, ht⟩ := inner.exists_head
    have hv : t.kind ∉ [Kind.varWord] := by revert ht; cases t.kind <;> decide
    have hp : t.kind ∉ [Kind.printWord] := by revert ht; cases t.kind <;> decide
    rw [attempt, bind_accept?_skip (.of_head step.ahead hv)]
    show Agrees (statement budget s) _
    rw [statement, bind_accept?_skip (.of_head step.ahead hp)]
    show Agrees (expressionStatement budget s) _
    exact expression_then_stop .expression inner isStop step

end Parser

end Scriptlet
