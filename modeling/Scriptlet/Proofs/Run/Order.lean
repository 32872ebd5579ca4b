/-
Scriptlet.Proofs.Run.Order — operands are evaluated from left to right.

Written out behind its operands, an expression is a list of instructions for a
machine with a stack: each operand leaves its value on the stack, and an operator
or an assignment takes what it needs from there. The list alone says in which
order things are done. Evaluating an expression, in the loop that programs use as
well as by plain recursion, comes to the same as doing the instructions in that
order up to the first that fails (`evaluate_follows_instructions`).

  §1 Instructions.
  §2 Doing one instruction after another.
  §3 The instructions of an expression.
-/
import Scriptlet.Run.Evaluation

namespace Scriptlet

/-! ## §1 Instructions -/

/-- One step of an evaluation. -/
inductive Instruction where
  /-- Put a value on the stack. -/
  | push (v : Value)
  /-- Put the value of a variable on the stack. -/
  | load (name : Token)
  /-- Assign the value on top of the stack and leave it there. -/
  | store (name : Token)
  /-- Apply an operator to the value on top of the stack. -/
  | unary (operator : Token)
  /-- Apply an operator to the two values on top of the stack, the right operand above the left. -/
  | binary (operator : Token)
  /-- Give up on something that is no expression. -/
  | halt (what : Misfit)

/-- The values of the operands that are waiting, the last one first, and the variables. -/
structure Machine where
  stack : List Value
  scope : Scope

namespace Instruction

/-- `i.Does m m'`: the instruction can be done, and it leads from one state to the other. -/
inductive Does : Instruction → Machine → Machine → Prop where
  | push {v : Value} {stack : List Value} {s : Scope} : Does (.push v) ⟨stack, s⟩ ⟨v :: stack, s⟩
  | load {name : Token} {v : Value} {stack : List Value} {s : Scope}
      (found : s.get? name.lexeme = some v) : Does (.load name) ⟨stack, s⟩ ⟨v :: stack, s⟩
  | store {name : Token} {v : Value} {stack : List Value} {s s' : Scope}
      (assigned : s.assign? name.lexeme v = some s') :
      Does (.store name) ⟨v :: stack, s⟩ ⟨v :: stack, s'⟩
  | unary {operator : Token} {v w : Value} {stack : List Value} {s : Scope}
      (applied : operator.applyUnary v = .ok w) :
      Does (.unary operator) ⟨v :: stack, s⟩ ⟨w :: stack, s⟩
  | binary {operator : Token} {v w u : Value} {stack : List Value} {s : Scope}
      (applied : operator.applyBinary v w = .ok u) :
      Does (.binary operator) ⟨w :: v :: stack, s⟩ ⟨u :: stack, s⟩

/-- `i.Fails m f`: the instruction cannot be done, for the reason `f`. -/
inductive Fails : Instruction → Machine → Fault → Prop where
  | load {name : Token} {stack : List Value} {s : Scope} (missing : s.get? name.lexeme = none) :
      Fails (.load name) ⟨stack, s⟩ (.runtime ⟨.undefinedVariable, name⟩)
  | store {name : Token} {v : Value} {stack : List Value} {s : Scope}
      (missing : s.assign? name.lexeme v = none) :
      Fails (.store name) ⟨v :: stack, s⟩ (.runtime ⟨.undefinedVariable, name⟩)
  | unary {operator : Token} {v : Value} {stack : List Value} {s : Scope} {e : RuntimeError}
      (refused : operator.applyUnary v = .error e) :
      Fails (.unary operator) ⟨v :: stack, s⟩ (.runtime e)
  | binary {operator : Token} {v w : Value} {stack : List Value} {s : Scope} {e : RuntimeError}
      (refused : operator.applyBinary v w = .error e) :
      Fails (.binary operator) ⟨w :: v :: stack, s⟩ (.runtime e)
  | halt {what : Misfit} {stack : List Value} {s : Scope} :
      Fails (.halt what) ⟨stack, s⟩ (.notExpression what)

variable {i : Instruction} {m m₁ m₂ : Machine} {f g : Fault}

theorem Does.unique (h₁ : i.Does m m₁) (h₂ : i.Does m m₂) : m₁ = m₂ := by
  cases h₁ <;> cases h₂ <;> simp_all

theorem Fails.unique (h₁ : i.Fails m f) (h₂ : i.Fails m g) : f = g := by
  cases h₁ <;> cases h₂ <;> simp_all

/-- An instruction that can be done does not fail. -/
theorem Does.not_fails (h : i.Does m m₁) : ¬ i.Fails m f := by
  intro fails
  cases h <;> cases fails <;> simp_all

end Instruction

/-! ## §2 Doing one instruction after another -/

/-- `Runs is m m'`: all instructions can be done in order, and they lead from one state to the
other. -/
inductive Runs : List Instruction → Machine → Machine → Prop where
  | nil {m : Machine} : Runs [] m m
  | cons {i : Instruction} {is : List Instruction} {m m₁ m₂ : Machine} (first : i.Does m m₁)
      (others : Runs is m₁ m₂) : Runs (i :: is) m m₂

/-- `BreaksOff is m f m'`: in the state `m'`, and not before, an instruction fails for the reason
`f`. -/
inductive BreaksOff : List Instruction → Machine → Fault → Machine → Prop where
  | here {i : Instruction} {is : List Instruction} {m : Machine} {f : Fault}
      (fails : i.Fails m f) : BreaksOff (i :: is) m f m
  | later {i : Instruction} {is : List Instruction} {m m₁ m₂ : Machine} {f : Fault}
      (first : i.Does m m₁) (others : BreaksOff is m₁ f m₂) : BreaksOff (i :: is) m f m₂

section Order

variable {is js : List Instruction} {m m₁ m₂ : Machine} {f g : Fault}

theorem Runs.append (first : Runs is m m₁) (next : Runs js m₁ m₂) : Runs (is ++ js) m m₂ := by
  induction first with
  | nil => exact next
  | cons done _ ih => exact .cons done (ih next)

/-- What comes behind a failure does not matter. -/
theorem BreaksOff.append (breaks : BreaksOff is m f m₁) (js : List Instruction) :
    BreaksOff (is ++ js) m f m₁ := by
  induction breaks with
  | here fails => exact .here fails
  | later done _ ih => exact .later done ih

theorem Runs.breaksOff_append (first : Runs is m m₁) (next : BreaksOff js m₁ f m₂) :
    BreaksOff (is ++ js) m f m₂ := by
  induction first with
  | nil => exact next
  | cons done _ ih => exact .later done (ih next)

theorem Runs.unique (h₁ : Runs is m m₁) (h₂ : Runs is m m₂) : m₁ = m₂ := by
  induction h₁ with
  | nil =>
    cases h₂
    rfl
  | cons done _ ih =>
    cases h₂ with
    | cons done' others => exact ih (done.unique done' ▸ others)

theorem BreaksOff.unique (h₁ : BreaksOff is m f m₁) (h₂ : BreaksOff is m g m₂) :
    f = g ∧ m₁ = m₂ := by
  induction h₁ with
  | here fails =>
    cases h₂ with
    | here fails' => exact ⟨fails.unique fails', rfl⟩
    | later done _ => exact absurd fails done.not_fails
  | later done _ ih =>
    cases h₂ with
    | here fails => exact absurd fails done.not_fails
    | later done' others => exact ih (done.unique done' ▸ others)

/-- Instructions that can all be done stop nowhere. -/
theorem Runs.not_breaksOff (runs : Runs is m m₁) : ¬ BreaksOff is m f m₂ := by
  induction runs with
  | nil => exact nofun
  | cons done _ ih =>
    intro breaks
    cases breaks with
    | here fails => exact done.not_fails fails
    | later done' others => exact ih (done.unique done' ▸ others)

/-- Stopping means that some instructions can be done and the next one fails. -/
theorem breaksOff_iff : BreaksOff is m f m₁ ↔
    ∃ done i rest, is = done ++ i :: rest ∧ Runs done m m₁ ∧ i.Fails m₁ f := by
  constructor
  · intro breaks
    induction breaks with
    | @here i is m f fails => exact ⟨[], i, is, rfl, .nil, fails⟩
    | @later i is m m₁ m₂ f first _ ih =>
      obtain ⟨done, j, rest, rfl, runs, fails⟩ := ih
      exact ⟨i :: done, j, rest, rfl, .cons first runs, fails⟩
  · rintro ⟨done, i, rest, rfl, runs, fails⟩
    exact runs.breaksOff_append (.here fails)

end Order

/-! ## §3 The instructions of an expression -/

/-- What there is to do for an expression: its operands from left to right, then itself. -/
def Expr.instructions : Expr → List Instruction
  | .literal v => [.push v]
  | .group inner => inner.instructions
  | .unary operator operand => operand.instructions ++ [.unary operator]
  | .binary left operator right =>
    left.instructions ++ (right.instructions ++ [.binary operator])
  | .var name => [.load name]
  | .assign name value => value.instructions ++ [.store name]
  | .misfit what => [.halt what]

namespace Evaluation

/-- `Follows operands is p`: with the operands on top of the stack, the evaluation `p` comes to the
same as the instructions. Its value takes the place of the operands; where it fails, the
instructions stop for the same reason and in the same scope. -/
def Follows (operands : List Value) (is : List Instruction) (p : Evaluation Value) : Prop :=
  ∀ stack s, match p s with
    | .ok v s' => Runs is ⟨operands ++ stack, s⟩ ⟨v :: stack, s'⟩
    | .error f s' => ∃ left, BreaksOff is ⟨operands ++ stack, s⟩ f ⟨left, s'⟩

/-- An evaluation of one more operand, and then of what is done with it. -/
theorem Follows.bind {operands : List Value} {is js : List Instruction} {p : Evaluation Value}
    {k : Value → Evaluation Value} (first : Follows [] is p)
    (next : ∀ v, Follows (v :: operands) js (k v)) : Follows operands (is ++ js) (p >>= k) := by
  intro stack s
  have first := first (operands ++ stack) s
  cases ran : p s with
  | ok v s₁ =>
    have next := next v stack s₁
    rw [ran] at first
    rw [bind_ok ran]
    cases ran' : k v s₁ with
    | ok w s₂ =>
      rw [ran'] at next
      exact first.append next
    | error f s₂ =>
      rw [ran'] at next
      obtain ⟨left, breaks⟩ := next
      exact ⟨left, first.breaksOff_append breaks⟩
  | error f s₁ =>
    rw [ran] at first
    rw [bind_error ran]
    obtain ⟨left, breaks⟩ := first
    exact ⟨left, breaks.append js⟩

theorem follows_push (v : Value) : Follows [] [.push v] (pure v) :=
  fun _ _ => .cons .push .nil

theorem follows_load (name : Token) : Follows [] [.load name] (read name) := by
  intro stack s
  rw [read_eq]
  cases found : s.get? name.lexeme with
  | some v => exact .cons (.load found) .nil
  | none => exact ⟨stack, .here (.load found)⟩

theorem follows_store (name : Token) (v : Value) : Follows [v] [.store name] (write name v) := by
  intro stack s
  rw [write_eq]
  cases assigned : s.assign? name.lexeme v with
  | some s' => exact .cons (.store assigned) .nil
  | none => exact ⟨v :: stack, .here (.store assigned)⟩

theorem follows_unary (operator : Token) (v : Value) :
    Follows [v] [.unary operator] (ofExcept (operator.applyUnary v)) := by
  intro stack s
  cases applied : operator.applyUnary v with
  | ok w => exact .cons (.unary applied) .nil
  | error e => exact ⟨v :: stack, .here (.unary applied)⟩

theorem follows_binary (operator : Token) (v w : Value) :
    Follows [w, v] [.binary operator] (ofExcept (operator.applyBinary v w)) := by
  intro stack s
  cases applied : operator.applyBinary v w with
  | ok u => exact .cons (.binary applied) .nil
  | error e => exact ⟨w :: v :: stack, .here (.binary applied)⟩

theorem follows_halt (what : Misfit) : Follows [] [.halt what] (throw (.notExpression what)) :=
  fun stack _ => ⟨stack, .here .halt⟩

section Endings

variable {is : List Instruction} {p : Evaluation Value} {s s' : Scope}

/-- An evaluation has a value exactly if all its instructions can be done. -/
theorem Follows.ok_iff (follows : Follows [] is p) {v : Value} :
    p s = .ok v s' ↔ Runs is ⟨[], s⟩ ⟨[v], s'⟩ := by
  have follows := follows [] s
  cases ran : p s with
  | ok w s₁ =>
    rw [ran] at follows
    constructor
    · intro eq
      cases eq
      exact follows
    · intro runs
      cases follows.unique runs
      rfl
  | error f s₁ =>
    rw [ran] at follows
    obtain ⟨left, breaks⟩ := follows
    exact ⟨nofun, fun runs => absurd breaks runs.not_breaksOff⟩

/-- An evaluation fails exactly if its instructions break off. -/
theorem Follows.error_iff (follows : Follows [] is p) {f : Fault} :
    p s = .error f s' ↔ ∃ stack, BreaksOff is ⟨[], s⟩ f ⟨stack, s'⟩ := by
  have follows := follows [] s
  cases ran : p s with
  | ok w s₁ =>
    rw [ran] at follows
    refine ⟨nofun, ?_⟩
    rintro ⟨stack, breaks⟩
    exact absurd breaks follows.not_breaksOff
  | error g s₁ =>
    rw [ran] at follows
    constructor
    · intro eq
      cases eq
      exact follows
    · rintro ⟨stack, breaks⟩
      obtain ⟨left, breaks'⟩ := follows
      obtain ⟨rfl, eq⟩ := breaks'.unique breaks
      cases eq
      rfl

end Endings

end Evaluation

namespace Expr

open Evaluation

/-- Evaluating an expression by recursion comes to the same as its instructions. -/
theorem follows_meaning (e : Expr) : Follows [] e.instructions e.meaning := by
  induction e with
  | literal v => exact follows_push v
  | group inner ih => exact ih
  | unary operator operand ih => exact ih.bind fun v => follows_unary operator v
  | binary left operator right ihl ihr =>
    -- the value of the left operand lies on the stack while the right one is evaluated
    exact ihl.bind fun v => ihr.bind fun w => follows_binary operator v w
  | var name => exact follows_load name
  | assign name value ih => exact ih.bind fun v => follows_store name v
  | misfit what => exact follows_halt what

/-- **Operands are evaluated from left to right, up to the first step that fails.** Whatever the
expression and the scope, evaluating in a loop ends as recursion does, with the same value or fault
and in the same scope. It has a value exactly if all instructions of the expression can be done in
order. It fails exactly if some of them can be done and the next one fails: that failure is its
fault, and its scope is the one that those before have left. -/
theorem evaluate_follows_instructions (e : Expr) (s : Scope) :
    e.evaluate s = e.meaning s ∧
    (∀ v s', e.evaluate s = .ok v s' ↔ Runs e.instructions ⟨[], s⟩ ⟨[v], s'⟩) ∧
    ∀ f s', e.evaluate s = .error f s' ↔ ∃ stack done i rest,
      e.instructions = done ++ i :: rest ∧ Runs done ⟨[], s⟩ ⟨stack, s'⟩ ∧
        i.Fails ⟨stack, s'⟩ f := by
  have follows := e.follows_meaning
  rw [← evaluate_eq_meaning] at follows
  refine ⟨by rw [evaluate_eq_meaning], fun v s' => follows.ok_iff, fun f s' => ?_⟩
  exact follows.error_iff.trans (exists_congr fun stack => breaksOff_iff)

end Expr

end Scriptlet
