/-
Scriptlet.Run.Interpreter — programs run one after another over the same variables.

An interpreter keeps its variables from one program to the next. A runtime error
ends a program and is handed to whoever listens for such errors; if nobody does, it
is passed on to the caller, as is everything else that can stop a program.
-/
import Scriptlet.Run.Execution

namespace Scriptlet

/-- The state of an interpreter. -/
structure Interpreter where
  /-- The variables. -/
  scope : Scope
  /-- What has been printed. -/
  printed : Text
  /-- The errors that the listener has been called with, if there is a listener. -/
  heard : Option (List RuntimeError)
deriving DecidableEq, Repr, Inhabited

namespace Interpreter

/-- A new interpreter, with or without a listener. -/
def start (listens : Bool) : Interpreter := ⟨.empty, [], if listens then some [] else none⟩

/-- Runs a program. The result says whether it came to its end. -/
def interpret (i : Interpreter) (entries : List Entry) : Except Fault Bool × Interpreter :=
  let effect := executeAll entries i.scope
  let ran := { i with scope := effect.scope, printed := i.printed ++ effect.printed }
  match effect.fault, i.heard with
  | none, _ => (.ok true, ran)
  | some (.runtime e), some heard => (.ok false, { ran with heard := some (heard ++ [e]) })
  | some f, _ => (.error f, ran)

section Endings

variable {i : Interpreter} {entries : List Entry}

/-- A program that comes to its end is not spoken of. -/
theorem interpret_of_no_fault (h : (executeAll entries i.scope).fault = none) :
    i.interpret entries = (.ok true,
      ⟨(executeAll entries i.scope).scope, i.printed ++ (executeAll entries i.scope).printed,
        i.heard⟩) := by
  simp only [interpret, h]

/-- The listener is told of a runtime error. -/
theorem interpret_of_runtime {heard : List RuntimeError} {e : RuntimeError}
    (listens : i.heard = some heard)
    (h : (executeAll entries i.scope).fault = some (.runtime e)) :
    i.interpret entries = (.ok false,
      ⟨(executeAll entries i.scope).scope, i.printed ++ (executeAll entries i.scope).printed,
        some (heard ++ [e])⟩) := by
  simp only [interpret, h, listens]

end Endings

end Interpreter

end Scriptlet
