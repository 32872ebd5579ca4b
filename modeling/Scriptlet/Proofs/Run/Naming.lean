/-
Scriptlet.Proofs.Run.Naming — which names a run leaves declared.

Evaluating an expression assigns to variables that there are and does nothing else
to the scope, so it keeps whatever its assignments keep (`keeps_meaning`); it
declares no name, whether it has a value or fails. A statement therefore declares
the name of its own declaration and no other, and only if it runs to its end. A
run leaves the names declared by the statements it completed, in the order of
their first declaration (`names_executeAll`).

  §1 Evaluations.
  §2 Statements.
  §3 Runs.
-/
import Scriptlet.Run.Execution

namespace Scriptlet

/-! ## §1 Evaluations -/

namespace Evaluation

variable {α β : Type} {P : Scope → Prop}

/-- The scope in which an evaluation ends. -/
def scopeOf : EStateM.Result Fault Scope α → Scope
  | .ok _ s => s
  | .error _ s => s

/-- An evaluation that keeps a property of the scope, whether it has a value or fails. -/
def Keeps (P : Scope → Prop) (p : Evaluation α) : Prop := ∀ s, P s → P (scopeOf (p s))

theorem Keeps.bind {p : Evaluation α} {k : α → Evaluation β} (first : Keeps P p)
    (next : ∀ a, Keeps P (k a)) : Keeps P (p >>= k) := by
  intro s h
  have first := first s h
  cases ran : p s with
  | ok a s' =>
    rw [ran] at first
    rw [bind_ok ran]
    exact next a s' first
  | error f s' =>
    rw [ran] at first
    rw [bind_error ran]
    exact first

theorem keeps_ofExcept (r : Except RuntimeError Value) : Keeps P (ofExcept r) := by
  intro s h
  cases r <;> exact h

theorem keeps_read (name : Token) : Keeps P (read name) := by
  intro s h
  rw [read_eq]
  cases s.get? name.lexeme <;> exact h

theorem keeps_write {name : Token}
    (assigns : ∀ s v s', P s → s.assign? name.lexeme v = some s' → P s') (v : Value) :
    Keeps P (write name v) := by
  intro s h
  rw [write_eq]
  cases assigned : s.assign? name.lexeme v with
  | some s' => exact assigns s v s' h assigned
  | none => exact h

end Evaluation

namespace Expr

open Evaluation

/-- The names to which an expression assigns. -/
def targets : Expr → List Text
  | .literal _ | .var _ | .misfit _ => []
  | .group inner => inner.targets
  | .unary _ operand => operand.targets
  | .binary left _ right => left.targets ++ right.targets
  | .assign name value => name.lexeme :: value.targets

/-- Evaluation keeps what the assignments of the expression keep. -/
theorem keeps_meaning {P : Scope → Prop} (e : Expr)
    (assigns : ∀ name ∈ e.targets, ∀ s v s', P s → s.assign? name v = some s' → P s') :
    Keeps P e.meaning := by
  induction e with
  | literal v => exact fun _ h => h
  | group inner ih => exact ih assigns
  | unary operator operand ih => exact (ih assigns).bind fun v => keeps_ofExcept _
  | binary left operator right ihl ihr =>
    have ihl := ihl fun name mem => assigns name (List.mem_append_left _ mem)
    have ihr := ihr fun name mem => assigns name (List.mem_append_right _ mem)
    exact ihl.bind fun v => ihr.bind fun w => keeps_ofExcept _
  | var name => exact keeps_read name
  | assign name value ih =>
    have ih := ih fun other mem => assigns other (List.mem_cons_of_mem _ mem)
    exact ih.bind fun v => keeps_write (assigns name.lexeme List.mem_cons_self) v
  | misfit what => exact fun _ h => h

/-- Evaluation declares nothing. -/
theorem names_evaluate (e : Expr) (s : Scope) : (scopeOf (e.evaluate s)).names = s.names := by
  rw [evaluate_eq_meaning]
  refine e.keeps_meaning (P := fun s' => s'.names = s.names) ?_ s rfl
  intro name _ s₁ v s₂ same assigned
  rw [Scope.names_assign? assigned, same]

end Expr

/-! ## §2 Statements -/

/-- The name that an entry of a program declares. -/
def Entry.declared? : Entry → Option Text
  | some (.var name _) => some name.lexeme
  | _ => none

/-- What is evaluated first has a value or ends the matter, and declares nothing either way. -/
theorem Effect.ofEvaluation_cases (e : Expr) (s : Scope) (next : Value → Scope → Effect) :
    (∃ v s', s'.names = s.names ∧ Effect.ofEvaluation e s next = next v s') ∨
      ∃ f s', s'.names = s.names ∧ Effect.ofEvaluation e s next = ⟨s', [], some f⟩ := by
  have kept := e.names_evaluate s
  unfold Effect.ofEvaluation
  cases ran : e.evaluate s with
  | ok v s' =>
    rw [ran] at kept
    exact .inl ⟨v, s', kept, rfl⟩
  | error f s' =>
    rw [ran] at kept
    exact .inr ⟨f, s', kept, rfl⟩

section Names

variable {s : Scope} {names : List Text}

/-- A declaration adds its name to those there are. -/
theorem Scope.names_define_eraseDups (h : s.names = names.eraseDups) (name : Text) (v : Value) :
    (s.define name v).names = (names ++ [name]).eraseDups := by
  rw [names_define, OrderedMap.eraseDups_concat, h]
  simp only [List.mem_eraseDups]

/-- An entry runs to its end and declares its own name, if it has one, and no other; or it fails,
and then it prints and declares nothing. -/
theorem Entry.execute_cases (entry : Entry) (h : s.names = names.eraseDups) :
    ((entry.execute s).fault = none ∧
      (entry.execute s).scope.names = (names ++ entry.declared?.toList).eraseDups) ∨
    ∃ f s', s'.names = s.names ∧ entry.execute s = ⟨s', [], some f⟩ := by
  match entry with
  | none => exact .inr ⟨_, s, rfl, rfl⟩
  | some (.misfit what) => exact .inr ⟨_, s, rfl, rfl⟩
  | some (.var name none) => exact .inl ⟨rfl, Scope.names_define_eraseDups h _ _⟩
  | some (.expression e) | some (.print e) =>
    rw [Entry.execute, Stmt.execute]
    rcases Effect.ofEvaluation_cases e s _ with ⟨v, s', same, ran⟩ | failed
    · rw [ran]
      exact .inl ⟨rfl, by simp [Entry.declared?, same, h]⟩
    · exact .inr failed
  | some (.var name (some e)) =>
    rw [Entry.execute, Stmt.execute]
    rcases Effect.ofEvaluation_cases e s _ with ⟨v, s', same, ran⟩ | failed
    · rw [ran]
      exact .inl ⟨rfl, Scope.names_define_eraseDups (same.trans h) _ _⟩
    · exact .inr failed

/-! ## §3 Runs -/

/-- A run that comes to its end leaves the names that its entries declare, behind those there
were. -/
theorem names_executeAll {entries : List Entry} (h : s.names = names.eraseDups)
    (done : (executeAll entries s).fault = none) :
    (executeAll entries s).scope.names =
      (names ++ entries.filterMap Entry.declared?).eraseDups := by
  induction entries generalizing s names with
  | nil => simpa [executeAll] using h
  | cons entry rest ih =>
    rcases entry.execute_cases h with ⟨fine, added⟩ | ⟨f, s', -, failed⟩
    · rw [executeAll_of_no_fault fine] at done ⊢
      rw [ih added done]
      cases declared : entry.declared? <;> simp [declared]
    · rw [executeAll_of_fault (f := f) (by rw [failed]), failed] at done
      cases done

/-- A run that fails stops at one entry. Those before it have run to their end, and those behind it
are not reached. -/
theorem executeAll_stops {entries : List Entry} {f : Fault}
    (stopped : (executeAll entries s).fault = some f) :
    ∃ before entry after, entries = before ++ entry :: after ∧
      (executeAll before s).fault = none ∧
      (entry.execute (executeAll before s).scope).fault = some f ∧
      (executeAll entries s).scope = (entry.execute (executeAll before s).scope).scope := by
  induction entries generalizing s with
  | nil => cases stopped
  | cons entry rest ih =>
    cases first : (entry.execute s).fault with
    | some g =>
      rw [executeAll_of_fault first] at stopped ⊢
      exact ⟨[], entry, rest, rfl, rfl, stopped, rfl⟩
    | none =>
      rw [executeAll_of_no_fault first] at stopped ⊢
      obtain ⟨before, last, after, rfl, fine, failed, scope⟩ := ih stopped
      refine ⟨entry :: before, last, after, rfl, ?_⟩
      rw [executeAll_of_no_fault first]
      exact ⟨fine, failed, scope⟩

/-- A run that fails leaves the names that were declared before the entry at which it stops. -/
theorem names_executeAll_stops {entries : List Entry} {f : Fault} (h : s.names = names.eraseDups)
    (stopped : (executeAll entries s).fault = some f) :
    ∃ before entry after, entries = before ++ entry :: after ∧
      (executeAll before s).fault = none ∧
      (entry.execute (executeAll before s).scope).fault = some f ∧
      (executeAll entries s).scope.names =
        (names ++ before.filterMap Entry.declared?).eraseDups := by
  obtain ⟨before, entry, after, split, fine, failed, scope⟩ := executeAll_stops stopped
  have declared := names_executeAll h fine
  refine ⟨before, entry, after, split, fine, failed, ?_⟩
  rcases entry.execute_cases declared with ⟨done, -⟩ | ⟨g, s', same, ran⟩
  · rw [failed] at done
    cases done
  · rw [scope, ran, same, declared]

end Names

end Scriptlet
