/-
Scriptlet.Proofs.Run.Frame — an expression depends on its own variables and changes
no others.

Of the scope an evaluation sees nothing but the values of the names that it reads
or assigns to, so two scopes that agree on these names cannot be told apart by it:
it ends alike in both, and the scopes it leaves agree on these names again
(`sees_meaning`). Names to which the expression does not assign are kept
(`get?_meaning`). Both hold of every step, and one step after another preserves
them, whether the last one has a value or fails.

  §1 Scopes that agree on names.
  §2 Evaluations that see some names.
  §3 Expressions.
-/
import Scriptlet.Proofs.Run.Naming

namespace Scriptlet

/-! ## §1 Scopes that agree on names -/

namespace Scope

variable {names : List Text} {s₁ s₂ : Scope}

/-- Scopes that agree on names: each of these has the same value in both, or is declared in
neither. -/
def AgreeOn (names : List Text) (s₁ s₂ : Scope) : Prop :=
  ∀ name ∈ names, s₁.get? name = s₂.get? name

theorem AgreeOn.insert (agree : AgreeOn names s₁ s₂) (name : Text) (v : Value) :
    AgreeOn names (s₁.insert name v) (s₂.insert name v) := by
  intro other mem
  rw [OrderedMap.get?_insert, OrderedMap.get?_insert, agree other mem]

/-- An assignment to one of the names succeeds in both scopes or in neither. -/
theorem AgreeOn.assign?_cases (agree : AgreeOn names s₁ s₂) {name : Text} (mem : name ∈ names)
    (v : Value) : (s₁.assign? name v = none ∧ s₂.assign? name v = none) ∨
      ∃ s₁' s₂', s₁.assign? name v = some s₁' ∧ s₂.assign? name v = some s₂' ∧
        AgreeOn names s₁' s₂' := by
  have known : s₁.contains name = s₂.contains name := by
    rw [OrderedMap.contains, OrderedMap.contains, agree name mem]
  unfold assign?
  rw [known]
  cases s₂.contains name with
  | true => exact .inr ⟨_, _, rfl, rfl, agree.insert name v⟩
  | false => exact .inl ⟨rfl, rfl⟩

/-- An assignment changes no other name. -/
theorem get?_assign? {s s' : Scope} {name other : Text} {v : Value}
    (assigned : s.assign? name v = some s') (ne : other ≠ name) : s'.get? other = s.get? other := by
  unfold assign? at assigned
  split at assigned
  · obtain rfl := Option.some.inj assigned
    exact OrderedMap.get?_insert_of_ne ne s v
  · cases assigned

end Scope

/-! ## §2 Evaluations that see some names -/

namespace Evaluation

open Scope (AgreeOn)

variable {α β : Type} {names : List Text}

/-- The value or the fault with which an evaluation ends. -/
def outcomeOf : EStateM.Result Fault Scope α → Except Fault α
  | .ok a _ => .ok a
  | .error f _ => .error f

/-- `Sees names p`: scopes that agree on the names are all the same to the evaluation. It ends with
the same value or fault, and the scopes that it leaves agree on the names. -/
def Sees (names : List Text) (p : Evaluation α) : Prop :=
  ∀ s₁ s₂, AgreeOn names s₁ s₂ →
    outcomeOf (p s₁) = outcomeOf (p s₂) ∧ AgreeOn names (scopeOf (p s₁)) (scopeOf (p s₂))

theorem Sees.bind {p : Evaluation α} {k : α → Evaluation β} (first : Sees names p)
    (next : ∀ a, Sees names (k a)) : Sees names (p >>= k) := by
  intro s₁ s₂ agree
  obtain ⟨same, left⟩ := first s₁ s₂ agree
  cases ran₁ : p s₁ with
  | ok a s₁' =>
    cases ran₂ : p s₂ with
    | ok b s₂' =>
      rw [ran₁, ran₂] at same left
      obtain rfl : a = b := Except.ok.inj same
      rw [bind_ok ran₁, bind_ok ran₂]
      exact next a s₁' s₂' left
    | error f s₂' => rw [ran₁, ran₂] at same; cases same
  | error f s₁' =>
    cases ran₂ : p s₂ with
    | ok b s₂' => rw [ran₁, ran₂] at same; cases same
    | error g s₂' =>
      rw [ran₁, ran₂] at same left
      obtain rfl : f = g := Except.error.inj same
      rw [bind_error ran₁, bind_error ran₂]
      exact ⟨rfl, left⟩

theorem sees_ofExcept (r : Except RuntimeError Value) : Sees names (ofExcept r) := by
  intro s₁ s₂ agree
  cases r <;> exact ⟨rfl, agree⟩

theorem sees_read {name : Token} (mem : name.lexeme ∈ names) : Sees names (read name) := by
  intro s₁ s₂ agree
  rw [read_eq, read_eq, agree name.lexeme mem]
  cases s₂.get? name.lexeme <;> exact ⟨rfl, agree⟩

theorem sees_write {name : Token} (mem : name.lexeme ∈ names) (v : Value) :
    Sees names (write name v) := by
  intro s₁ s₂ agree
  rw [write_eq, write_eq]
  rcases agree.assign?_cases mem v with ⟨none₁, none₂⟩ | ⟨s₁', s₂', some₁, some₂, agree'⟩
  · rw [none₁, none₂]
    exact ⟨rfl, agree⟩
  · rw [some₁, some₂]
    exact ⟨rfl, agree'⟩

end Evaluation

/-! ## §3 Expressions -/

namespace Expr

open Evaluation
open Scope (AgreeOn)

/-- The names that occur in an expression. -/
def names : Expr → List Text
  | .literal _ | .misfit _ => []
  | .group inner => inner.names
  | .unary _ operand => operand.names
  | .binary left _ right => left.names ++ right.names
  | .var name => [name.lexeme]
  | .assign name value => name.lexeme :: value.names

/-- The names that occur in an expression are all it sees. More may be known to agree, which is what
the operands of an operator need: each sees its own names, and has to keep those of the other. -/
theorem sees_meaning (e : Expr) {names : List Text} (h : e.names ⊆ names) :
    Sees names e.meaning := by
  induction e with
  | literal v => exact fun _ _ agree => ⟨rfl, agree⟩
  | group inner ih => exact ih h
  | unary operator operand ih => exact (ih h).bind fun v => sees_ofExcept _
  | binary left operator right ihl ihr =>
    obtain ⟨hl, hr⟩ := List.append_subset.mp h
    exact (ihl hl).bind fun v => (ihr hr).bind fun w => sees_ofExcept _
  | var name => exact sees_read (h List.mem_cons_self)
  | assign name value ih =>
    obtain ⟨here, others⟩ := List.cons_subset.mp h
    exact (ih others).bind fun v => sees_write here v
  | misfit what => exact fun _ _ agree => ⟨rfl, agree⟩

/-- A name to which an expression does not assign is kept. -/
theorem get?_meaning (e : Expr) {name : Text} (h : name ∉ e.targets) (s : Scope) :
    (scopeOf (e.meaning s)).get? name = s.get? name := by
  refine e.keeps_meaning (P := fun s' => s'.get? name = s.get? name) ?_ s rfl
  intro other target s₁ v s₂ same assigned
  have ne : name ≠ other := by
    rintro rfl
    exact h target
  rw [Scope.get?_assign? assigned ne, same]

/-- **An expression depends on its own variables and changes no others.** In scopes that agree on
the names that occur in it, an expression has the same value or fails in the same way, and the
scopes that are left agree on these names again. In whatever scope, and also where it fails, every
name to which it does not assign is left as it was. -/
theorem evaluate_within_names (e : Expr) (s₁ s₂ : Scope) (agree : AgreeOn e.names s₁ s₂) :
    outcomeOf (e.evaluate s₁) = outcomeOf (e.evaluate s₂) ∧
    AgreeOn e.names (scopeOf (e.evaluate s₁)) (scopeOf (e.evaluate s₂)) ∧
    ∀ s, ∀ name ∉ e.targets, (scopeOf (e.evaluate s)).get? name = s.get? name := by
  rw [evaluate_eq_meaning]
  obtain ⟨same, left⟩ := e.sees_meaning (List.Subset.refl _) s₁ s₂ agree
  exact ⟨same, left, fun s name h => e.get?_meaning h s⟩

/-- The expression `(a = a + "x") - b`. -/
def lengtheningOperand : Expr :=
  let a : Token := ⟨.name, "a", none, 1, 1⟩
  .binary
    (.group (.assign a (.binary (.var a) ⟨.plus, "+", none, 1, 7⟩ (.literal (.string "x")))))
    ⟨.minus, "-", none, 1, 14⟩ (.var ⟨.name, "b", none, 1, 16⟩)

/-- A scope with the variables of the expression and another one. -/
def threeVariables : Scope :=
  ⟨[("c", .nil), ("a", .string "p"), ("b", .bool true)], by decide⟩

/-- The same values of the two variables, declared the other way round. -/
def twoVariables : Scope := ⟨[("b", .bool true), ("a", .string "p")], by decide⟩

/-- In both scopes the assignment is made and then the subtraction fails; the third variable stays
what it was. -/
theorem evaluate_within_names_failing :
    AgreeOn lengtheningOperand.names threeVariables twoVariables ∧
    outcomeOf (lengtheningOperand.evaluate threeVariables) =
      .error (.runtime ⟨.operandsNotNumbers, ⟨.minus, "-", none, 1, 14⟩⟩) ∧
    outcomeOf (lengtheningOperand.evaluate twoVariables) =
      .error (.runtime ⟨.operandsNotNumbers, ⟨.minus, "-", none, 1, 14⟩⟩) ∧
    (scopeOf (lengtheningOperand.evaluate threeVariables)).get? "a" = some (.string "px") ∧
    (scopeOf (lengtheningOperand.evaluate twoVariables)).get? "a" = some (.string "px") ∧
    (scopeOf (lengtheningOperand.evaluate threeVariables)).get? "c" = some .nil ∧
    (scopeOf (lengtheningOperand.evaluate twoVariables)).get? "c" = none := by
  have agree : AgreeOn lengtheningOperand.names threeVariables twoVariables := by
    unfold AgreeOn
    decide
  have fails : outcomeOf (lengtheningOperand.evaluate threeVariables) =
      .error (.runtime ⟨.operandsNotNumbers, ⟨.minus, "-", none, 1, 14⟩⟩) := rfl
  have assigned : (scopeOf (lengtheningOperand.evaluate threeVariables)).get? "a" =
      some (.string "px") := rfl
  obtain ⟨same, left, kept⟩ := evaluate_within_names lengtheningOperand _ _ agree
  refine ⟨agree, fails, same ▸ fails, assigned, ?_, ?_, ?_⟩
  · rw [← left "a" (by decide), assigned]
  · rw [kept _ _ (by decide)]
    rfl
  · rw [kept _ _ (by decide)]
    rfl

end Expr

end Scriptlet
