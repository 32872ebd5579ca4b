/-
Scriptlet.Run.Evaluation — the value of an expression.

Operands are evaluated from left to right, each before its operator is applied,
and the first thing that goes wrong ends the evaluation; assignments made until
then stay. A chain `a + b + c` leans to the left, and to follow it by recursion
would take a frame for each operator. The evaluation that programs use therefore
walks down to the first operand once and then applies the pending operators in a
loop. The plain recursion is kept beside it as the meaning of an expression.

  §1 Operators.
  §2 Variables.
  §3 Evaluation in a loop.
  §4 The meaning of an expression.
-/
import Scriptlet.Run.Scope
import Scriptlet.Run.Fault

namespace Scriptlet

/-! ## §1 Operators -/

namespace Token

/-- Applies an operator in front of its operand. -/
def applyUnary (operator : Token) (v : Value) : Except RuntimeError Value :=
  match operator.kind with
  | .bang => .ok (.bool !v.isTruthy)
  | .minus =>
    match v with
    | .number x => .ok (.number x.neg)
    | _ => .error ⟨.operandNotNumber, operator⟩
  | _ => .error ⟨.unknownUnary, operator⟩

/-- Applies an operator that takes two numbers. -/
def applyToNumbers (operator : Token) (f : Double → Double → Value) :
    Value → Value → Except RuntimeError Value
  | .number x, .number y => .ok (f x y)
  | _, _ => .error ⟨.operandsNotNumbers, operator⟩

/-- Applies a plus: it adds numbers and joins strings. -/
def applyPlus (operator : Token) : Value → Value → Except RuntimeError Value
  | .number x, .number y => .ok (.number (x.add y))
  | .string t, .string u => .ok (.string (t ++ u))
  | _, _ => .error ⟨.operandsNotAddable, operator⟩

/-- Applies an operator between its operands. -/
def applyBinary (operator : Token) (v w : Value) : Except RuntimeError Value :=
  match operator.kind with
  | .plus => operator.applyPlus v w
  | .minus => operator.applyToNumbers (fun x y => .number (x.sub y)) v w
  | .star => operator.applyToNumbers (fun x y => .number (x.mul y)) v w
  | .slash => operator.applyToNumbers (fun x y => .number (x.div y)) v w
  | .greater => operator.applyToNumbers (fun x y => .bool (y.lt x)) v w
  | .greaterEqual => operator.applyToNumbers (fun x y => .bool (y.le x)) v w
  | .less => operator.applyToNumbers (fun x y => .bool (x.lt y)) v w
  | .lessEqual => operator.applyToNumbers (fun x y => .bool (x.le y)) v w
  | .equalEqual => .ok (.bool (v.equals w))
  | .bangEqual => .ok (.bool !(v.equals w))
  | _ => .error ⟨.unknownBinary, operator⟩

end Token

/-! ## §2 Variables -/

/-- An evaluation may change the scope, and ends with a value or a fault. -/
abbrev Evaluation := EStateM Fault Scope

namespace Evaluation

/-- What the application of an operator gives. -/
def ofExcept : Except RuntimeError Value → Evaluation Value
  | .ok v => pure v
  | .error e => throw (.runtime e)

/-- The value of the variable that a token names. -/
def read (name : Token) : Evaluation Value := do
  match (← get).get? name.lexeme with
  | some v => return v
  | none => throw (.runtime ⟨.undefinedVariable, name⟩)

/-- Assigns to the variable that a token names. -/
def write (name : Token) (v : Value) : Evaluation Value := do
  match (← get).assign? name.lexeme v with
  | some s =>
    set s
    return v
  | none => throw (.runtime ⟨.undefinedVariable, name⟩)

/-! ### How evaluations end -/

section Endings

variable {α β : Type} {p : Evaluation α} {k : α → Evaluation β} {s s' : Scope}

theorem bind_ok {a : α} (h : p s = .ok a s') : (p >>= k) s = k a s' := by
  show EStateM.bind p k s = k a s'
  simp only [EStateM.bind, h]

theorem bind_error {f : Fault} (h : p s = .error f s') : (p >>= k) s = .error f s' := by
  show EStateM.bind p k s = .error f s'
  simp only [EStateM.bind, h]

/-- Reading a variable changes nothing. -/
theorem read_eq (name : Token) (s : Scope) :
    read name s = (s.get? name.lexeme).elim
      (.error (.runtime ⟨.undefinedVariable, name⟩) s) (.ok · s) := by
  have here : (get : Evaluation Scope) s = .ok s s := rfl
  rw [read, bind_ok here]
  cases s.get? name.lexeme <;> rfl

/-- An assignment that fails changes nothing. -/
theorem write_eq (name : Token) (v : Value) (s : Scope) :
    write name v s = (s.assign? name.lexeme v).elim
      (.error (.runtime ⟨.undefinedVariable, name⟩) s) (.ok v ·) := by
  have here : (get : Evaluation Scope) s = .ok s s := rfl
  rw [write, bind_ok here]
  cases s.assign? name.lexeme v <;> rfl

end Endings

/-! ## §3 Evaluation in a loop -/

/-- An operator with the evaluation of its right operand. -/
abbrev Step := Token × Evaluation Value

/-- Evaluates the right operand of a step and applies its operator. -/
def step (left : Value) (s : Step) : Evaluation Value := do
  let right ← s.2
  ofExcept (s.1.applyBinary left right)

/-- Applies pending steps in order to the value of a first operand. -/
def fold (first : Evaluation Value) (steps : List Step) : Evaluation Value := do
  steps.foldlM step (← first)

end Evaluation

namespace Expr

open Evaluation

/-- Evaluates an expression and then applies the pending steps to its value. -/
def evaluateWith : Expr → List Step → Evaluation Value
  | .binary left operator right, steps =>
    left.evaluateWith ((operator, right.evaluateWith []) :: steps)
  | .literal v, steps => fold (pure v) steps
  | .group inner, steps => fold (inner.evaluateWith []) steps
  | .unary operator operand, steps =>
    fold (do ofExcept (operator.applyUnary (← operand.evaluateWith []))) steps
  | .var name, steps => fold (read name) steps
  | .assign name value, steps => fold (do write name (← value.evaluateWith [])) steps
  | .misfit what, steps => fold (throw (.notExpression what)) steps

/-- The value of an expression. -/
def evaluate (e : Expr) : Evaluation Value := e.evaluateWith []

/-! ## §4 The meaning of an expression -/

/-- The value of an expression by recursion on its form. -/
def meaning : Expr → Evaluation Value
  | .literal v => pure v
  | .group inner => inner.meaning
  | .unary operator operand => do ofExcept (operator.applyUnary (← operand.meaning))
  | .binary left operator right => do
    let v ← left.meaning
    let w ← right.meaning
    ofExcept (operator.applyBinary v w)
  | .var name => read name
  | .assign name value => do write name (← value.meaning)
  | .misfit what => throw (.notExpression what)

/-- The loop evaluates to the meaning of the expression, followed by the pending steps. -/
theorem evaluateWith_eq_fold (e : Expr) (steps : List Step) :
    e.evaluateWith steps = fold e.meaning steps := by
  induction e generalizing steps with
  | literal v => rfl
  | group inner ih => simp [evaluateWith, meaning, ih, fold]
  | unary operator operand ih => simp [evaluateWith, meaning, ih, fold]
  | binary left operator right ihl ihr =>
    simp [evaluateWith, meaning, ihl, ihr, fold, step, List.foldlM_cons, bind_assoc]
  | var name => rfl
  | assign name value ih => simp [evaluateWith, meaning, ih, fold]
  | misfit what => rfl

/-- Programs evaluate expressions to their meaning. -/
theorem evaluate_eq_meaning (e : Expr) : e.evaluate = e.meaning := by
  rw [evaluate, evaluateWith_eq_fold]
  simp [fold]

end Expr

end Scriptlet
