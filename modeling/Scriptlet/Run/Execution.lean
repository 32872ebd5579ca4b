/-
Scriptlet.Run.Execution — running statements.

Statements run in order until one fails. What has been printed and assigned by
then stays, and nothing after the failure happens.
-/
import Scriptlet.Run.Evaluation

namespace Scriptlet

/-- What running statements does. -/
structure Effect where
  /-- The variables afterwards. -/
  scope : Scope
  /-- What was printed. -/
  printed : Text
  /-- What stopped the run, if anything did. -/
  fault : Option Fault
deriving DecidableEq, Repr, Inhabited

/-- Evaluates an expression and goes on with its value in the scope it leaves. -/
def Effect.ofEvaluation (e : Expr) (s : Scope) (next : Value → Scope → Effect) : Effect :=
  match e.evaluate s with
  | .ok v s' => next v s'
  | .error f s' => ⟨s', [], some f⟩

/-- Runs a statement. -/
def Stmt.execute : Stmt → Scope → Effect
  | .expression e, s => .ofEvaluation e s fun _ s' => ⟨s', [], none⟩
  | .print e, s => .ofEvaluation e s fun v s' => ⟨s', Text.line v.text, none⟩
  | .var name none, s => ⟨s.define name.lexeme .nil, [], none⟩
  | .var name (some e), s => .ofEvaluation e s fun v s' => ⟨s'.define name.lexeme v, [], none⟩
  | .misfit what, s => ⟨s, [], some (.notStatement what)⟩

/-- Runs an entry of a program; one that could not be read cannot be run. -/
def Entry.execute : Entry → Scope → Effect
  | some stmt, s => stmt.execute s
  | none, s => ⟨s, [], some (.notStatement .nothing)⟩

/-- Runs the entries of a program in order, up to the first that fails. -/
def executeAll : List Entry → Scope → Effect
  | [], s => ⟨s, [], none⟩
  | entry :: rest, s =>
    let first := entry.execute s
    match first.fault with
    | some _ => first
    | none =>
      let others := executeAll rest first.scope
      { others with printed := first.printed ++ others.printed }

section Runs

variable {entry : Entry} {rest : List Entry} {s : Scope}

/-- A run stops with the first entry that fails. -/
theorem executeAll_of_fault {f : Fault} (h : (entry.execute s).fault = some f) :
    executeAll (entry :: rest) s = entry.execute s := by
  rw [executeAll, h]

/-- A run goes on behind an entry that does not fail. -/
theorem executeAll_of_no_fault (h : (entry.execute s).fault = none) :
    executeAll (entry :: rest) s =
      ⟨(executeAll rest (entry.execute s).scope).scope,
        (entry.execute s).printed ++ (executeAll rest (entry.execute s).scope).printed,
        (executeAll rest (entry.execute s).scope).fault⟩ := by
  rw [executeAll, h]

end Runs

end Scriptlet
