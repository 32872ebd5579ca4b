/-
Scriptlet.Proofs.Run.Interruption — what a program that fails leaves behind.

A run over statements in a row is a run over the first ones and, if these come to
their end, one over the others (`interpret_append`). Where it is interrupted, the
statements before have done all they do and those behind do nothing. The statement
that fails does so at one of the instructions of its expression: it prints and
declares nothing, and of its assignments those stay that are among the instructions
before (`Expr.exists_leavesOff`).

  §1 Trees without misfits.
  §2 The assignments of instructions.
  §3 The statement that fails.
  §4 Programs one after another.
-/
import Scriptlet.Run.Interpreter
import Scriptlet.Proofs.Run.Frame
import Scriptlet.Proofs.Run.Order
import Scriptlet.Proofs.Run.Succession

namespace Scriptlet

/-! ## §1 Trees without misfits -/

/-- Is there no misfit in an expression? -/
def Expr.isWhole : Expr → Bool
  | .literal _ | .var _ => true
  | .group inner => inner.isWhole
  | .unary _ operand => operand.isWhole
  | .binary left _ right => left.isWhole && right.isWhole
  | .assign _ value => value.isWhole
  | .misfit _ => false

/-- Is there no misfit in a statement? -/
def Stmt.isWhole : Stmt → Bool
  | .expression e | .print e => e.isWhole
  | .var _ initial => initial.all Expr.isWhole
  | .misfit _ => false

/-- The expression that a statement evaluates. -/
def Stmt.operand? : Stmt → Option Expr
  | .expression e | .print e => some e
  | .var _ initial => initial
  | .misfit _ => none

/-- Only a misfit gives up. -/
theorem Expr.halt_not_mem_instructions {e : Expr} (whole : e.isWhole = true) (what : Misfit) :
    .halt what ∉ e.instructions := by
  induction e with
  | literal v => simp [instructions]
  | group inner ih => exact ih whole
  | unary operator operand ih => simpa [instructions] using ih whole
  | binary left operator right ihl ihr =>
    rw [isWhole, Bool.and_eq_true] at whole
    simpa [instructions] using ⟨ihl whole.1, ihr whole.2⟩
  | var name => simp [instructions]
  | assign name value ih => simpa [instructions] using ih whole
  | misfit other => cases whole

theorem Instruction.Fails.exists_runtime {i : Instruction} {m : Machine} {f : Fault}
    (fails : i.Fails m f) (noHalt : ∀ what, i ≠ .halt what) : ∃ e, f = .runtime e := by
  cases fails with
  | load | store | unary | binary => exact ⟨_, rfl⟩
  | @halt what => exact absurd rfl (noHalt what)

/-! ## §2 The assignments of instructions -/

/-- The variable to which an instruction assigns. -/
def Instruction.target? : Instruction → Option Text
  | .store name => some name.lexeme
  | .push _ | .load _ | .unary _ | .binary _ | .halt _ => none

/-- Assigns values to names one after another; all of these have to be declared. -/
def Scope.assignAll? (s : Scope) : List (Text × Value) → Option Scope
  | [] => some s
  | (name, v) :: rest => (s.assign? name v).bind (·.assignAll? rest)

/-- Instructions change the variables by their assignments and by nothing else. -/
theorem Runs.exists_assignAll? {is : List Instruction} {m m' : Machine} (runs : Runs is m m') :
    ∃ writes, writes.map Prod.fst = is.filterMap Instruction.target? ∧
      m.scope.assignAll? writes = some m'.scope := by
  induction runs with
  | nil => exact ⟨[], rfl, rfl⟩
  | cons first _ ih =>
    obtain ⟨writes, targets, assigned⟩ := ih
    cases first with
    | push | load | unary | binary => exact ⟨writes, targets, assigned⟩
    | @store name v stack s s' stored =>
      refine ⟨(name.lexeme, v) :: writes, congrArg (name.lexeme :: ·) targets, ?_⟩
      rw [Scope.assignAll?, stored]
      exact assigned

/-! ## §3 The statement that fails -/

/-- `e.LeavesOff s error s'`: evaluated in the scope `s`, the expression fails with an error at one
of its instructions. Those before it are done. The scope that is left is the one there was, with the
assignments among them made in order. -/
def Expr.LeavesOff (e : Expr) (s : Scope) (error : RuntimeError) (s' : Scope) : Prop :=
  ∃ done step rest stack writes, e.instructions = done ++ step :: rest ∧
    Runs done ⟨[], s⟩ ⟨stack, s'⟩ ∧ step.Fails ⟨stack, s'⟩ (.runtime error) ∧
    writes.map Prod.fst = done.filterMap Instruction.target? ∧ s.assignAll? writes = some s'

/-- An expression without misfits that fails does so with an error, and leaves off there. -/
theorem Expr.exists_leavesOff {e : Expr} (whole : e.isWhole = true) {s s' : Scope} {f : Fault}
    (failed : e.evaluate s = .error f s') :
    ∃ error, f = .runtime error ∧ e.LeavesOff s error s' := by
  rw [evaluate_eq_meaning, e.follows_meaning.error_iff] at failed
  obtain ⟨stack, breaks⟩ := failed
  obtain ⟨done, step, rest, split, runs, fails⟩ := breaksOff_iff.mp breaks
  have noHalt : ∀ what, step ≠ .halt what := by
    rintro what rfl
    exact halt_not_mem_instructions whole what (by simp [split])
  obtain ⟨error, rfl⟩ := fails.exists_runtime noHalt
  obtain ⟨writes, targets, assigned⟩ := runs.exists_assignAll?
  exact ⟨error, rfl, done, step, rest, stack, writes, split, runs, fails, targets, assigned⟩

theorem Effect.ofEvaluation_fault {e : Expr} {s : Scope} {next : Value → Scope → Effect} {f : Fault}
    (fine : ∀ v s', (next v s').fault = none) (failed : (ofEvaluation e s next).fault = some f) :
    ∃ s', e.evaluate s = .error f s' ∧ ofEvaluation e s next = ⟨s', [], some f⟩ := by
  unfold ofEvaluation at failed ⊢
  cases ran : e.evaluate s with
  | ok v s' =>
    rw [ran, fine] at failed
    cases failed
  | error g s' =>
    rw [ran] at failed
    obtain rfl := Option.some.inj failed
    exact ⟨s', rfl, rfl⟩

/-- A statement without misfits fails in the evaluation of its expression. -/
theorem Stmt.execute_fault {stmt : Stmt} (whole : stmt.isWhole = true) {s : Scope} {f : Fault}
    (failed : (stmt.execute s).fault = some f) :
    ∃ e s', stmt.operand? = some e ∧ e.isWhole = true ∧ e.evaluate s = .error f s' ∧
      stmt.execute s = ⟨s', [], some f⟩ := by
  match stmt with
  | .expression e | .print e | .var name (some e) =>
    obtain ⟨s', ran, effect⟩ := Effect.ofEvaluation_fault (fun _ _ => rfl) failed
    exact ⟨e, s', rfl, whole, ran, effect⟩
  | .var name none => cases failed
  | .misfit what => cases whole

namespace Interpreter

/-- `i.Interrupted stmt error i'`: the statement fails in the state `i` and leaves the state `i'`.
It prints nothing, the listener is told of one error, and the variables are those that the
expression leaves where it leaves off. So no name is declared, and none changes to which the
expression does not assign, not even the one that the statement was to declare. -/
structure Interrupted (i : Interpreter) (stmt : Stmt) (error : RuntimeError) (i' : Interpreter) :
    Prop where
  printed : i'.printed = i.printed
  heard : i'.heard = i.heard.map (· ++ [error])
  trace : ∃ e, stmt.operand? = some e ∧ e.LeavesOff i.scope error i'.scope ∧
    ∀ name ∉ e.targets, i'.scope.get? name = i.scope.get? name
  names : i'.scope.names = i.scope.names

variable {i : Interpreter} {heard : List RuntimeError}

/-- A statement without misfits that fails interrupts the run, whatever stands behind it. -/
theorem exists_interrupted (listens : i.heard = some heard) {stmt : Stmt}
    (whole : stmt.isWhole = true) {f : Fault} (failed : (stmt.execute i.scope).fault = some f) :
    ∃ error i', i.Interrupted stmt error i' ∧
      ∀ others, i.interpret (some stmt :: others) = (.ok false, i') := by
  obtain ⟨e, s', operand, wholeOperand, ran, effect⟩ := stmt.execute_fault whole failed
  obtain ⟨error, rfl, leaves⟩ := e.exists_leavesOff wholeOperand ran
  have names := e.names_evaluate i.scope
  have kept := fun name (h : name ∉ e.targets) => e.get?_meaning h i.scope
  rw [← e.evaluate_eq_meaning] at kept
  rw [ran] at names kept
  refine ⟨error, ⟨s', i.printed, some (heard ++ [error])⟩,
    ⟨rfl, by rw [listens]; rfl, ⟨e, operand, leaves, kept⟩, names⟩, fun others => ?_⟩
  have failed : (Entry.execute (some stmt) i.scope).fault = some (.runtime error) := failed
  have stops : executeAll (some stmt :: others) i.scope = ⟨s', [], some (.runtime error)⟩ :=
    (executeAll_of_fault failed).trans effect
  rw [interpret_of_runtime listens (by rw [stops]), stops, List.append_nil]

/-! ## §4 Programs one after another -/

/-- Goes on with another program if one has come to its end. -/
def andThen (first : Except Fault Bool × Interpreter) (next : List Entry) :
    Except Fault Bool × Interpreter :=
  match first with
  | (.ok true, i') => i'.interpret next
  | stopped => stopped

/-- Programs in a row are interpreted one after another, up to the first that is stopped. -/
theorem interpret_append (i : Interpreter) (entries others : List Entry) :
    i.interpret (entries ++ others) = andThen (i.interpret entries) others := by
  have both := executeAll_append entries others i.scope
  cases fault : (executeAll entries i.scope).fault with
  | none =>
    rw [interpret_of_no_fault fault, andThen]
    simp only [interpret, both, Effect.andThen, fault, List.append_assoc]
  | some f =>
    rw [Effect.andThen, fault] at both
    simp only [interpret, both, fault]
    cases f with
    | runtime e => cases i.heard <;> rfl
    | notExpression what | notStatement what => rfl

/-- With a listener, a program without misfits comes to its end and the listener is not called; or
one of its statements is interrupted, behind others that have come to theirs. -/
theorem interpret_cases (listens : i.heard = some heard) {stmts : List Stmt}
    (whole : ∀ stmt ∈ stmts, stmt.isWhole = true) :
    (∃ i', i.interpret (stmts.map some) = (.ok true, i') ∧ i'.heard = some heard) ∨
    ∃ before stmt after error i₁ i', stmts = before ++ stmt :: after ∧
      i.interpret (before.map some) = (.ok true, i₁) ∧ i₁.heard = some heard ∧
      i₁.Interrupted stmt error i' ∧
      ∀ others, i.interpret ((before ++ stmt :: others).map some) = (.ok false, i') := by
  cases fault : (executeAll (stmts.map some) i.scope).fault with
  | none => exact .inl ⟨_, interpret_of_no_fault fault, listens⟩
  | some f =>
    obtain ⟨entries, entry, rest, split, fine, failed, -⟩ := executeAll_stops fault
    obtain ⟨before, behind, rfl, rfl, last⟩ := List.map_eq_append_iff.mp split
    obtain ⟨stmt, after, rfl, rfl, -⟩ := List.map_eq_cons_iff.mp last
    have first := interpret_of_no_fault fine
    generalize reached : Interpreter.mk (executeAll (before.map some) i.scope).scope
      (i.printed ++ (executeAll (before.map some) i.scope).printed) i.heard = i₁ at first
    have listens' : i₁.heard = some heard := by rw [← reached, listens]
    have failed : (stmt.execute i₁.scope).fault = some f := by rw [← reached]; exact failed
    obtain ⟨error, i', interrupted, stops⟩ :=
      exists_interrupted listens' (whole stmt (by simp)) failed
    refine .inr ⟨before, stmt, after, error, i₁, i', rfl, first, listens', interrupted, ?_⟩
    intro others
    rw [List.map_append, interpret_append, first]
    exact stops (others.map some)

/-- **Statements are run in order up to the first that fails.** With a listener, statements in a row
are interpreted as the first of them and, only if these come to their end, the others: with the same
result, variables, output and calls. A run that comes to its end does not call the listener. Any
other run says so: the listener is called once, with the error of one statement. The statements
before it have come to their end, it has itself printed and declared nothing and left only the
assignments that it made before it failed, and what stands behind it makes no difference. -/
theorem interpret_in_sequence (i : Interpreter) {heard : List RuntimeError}
    (listens : i.heard = some heard) (s t : List Stmt)
    (whole : ∀ stmt ∈ s ++ t, stmt.isWhole = true) :
    i.interpret ((s ++ t).map some) = andThen (i.interpret (s.map some)) (t.map some) ∧
    ((∃ i', i.interpret (s.map some) = (.ok true, i') ∧ i'.heard = some heard) ∨
      ∃ before stmt after error i₁ i', s = before ++ stmt :: after ∧
        i.interpret (before.map some) = (.ok true, i₁) ∧ i₁.heard = some heard ∧
        i₁.Interrupted stmt error i' ∧
        ∀ others, i.interpret ((before ++ stmt :: others).map some) = (.ok false, i')) := by
  refine ⟨?_, interpret_cases listens fun stmt mem => whole stmt (List.mem_append_left t mem)⟩
  rw [List.map_append, interpret_append]

/-- The statements `var a = "x"; print a;`. -/
def openingStatements : List Stmt :=
  [.var ⟨.name, "a", none, 1, 4⟩ (some (.literal (.string "x"))),
    .print (.var ⟨.name, "a", none, 1, 19⟩)]

/-- The statements `var a = (a = "y") + -a; print a;`, of which the first fails. -/
def failingStatements : List Stmt :=
  [.var ⟨.name, "a", none, 2, 4⟩ (some (.binary
      (.group (.assign ⟨.name, "a", none, 2, 9⟩ (.literal (.string "y"))))
      ⟨.plus, "+", none, 2, 18⟩
      (.unary ⟨.minus, "-", none, 2, 20⟩ (.var ⟨.name, "a", none, 2, 21⟩)))),
    .print (.var ⟨.name, "a", none, 2, 30⟩)]

/-- The declaration that fails has no effect, and the assignment inside it has. The listener is
called once, and what stands behind is not printed. -/
theorem interpret_in_sequence_failing :
    (start true).heard = some [] ∧
    (∀ stmt ∈ openingStatements ++ failingStatements, stmt.isWhole = true) ∧
    (start true).interpret (openingStatements.map some) =
      (.ok true, ⟨⟨[("a", .string "x")], by decide⟩, "x\n", some []⟩) ∧
    (start true).interpret ((openingStatements ++ failingStatements).map some) =
      (.ok false, ⟨⟨[("a", .string "y")], by decide⟩, "x\n",
        some [⟨.operandNotNumber, ⟨.minus, "-", none, 2, 20⟩⟩]⟩) := by
  have whole : ∀ stmt ∈ openingStatements ++ failingStatements, stmt.isWhole = true := by decide
  have first : (start true).interpret (openingStatements.map some) =
      (.ok true, ⟨⟨[("a", .string "x")], by decide⟩, "x\n", some []⟩) := rfl
  obtain ⟨both, -⟩ :=
    interpret_in_sequence (start true) rfl openingStatements failingStatements whole
  refine ⟨rfl, whole, first, both.trans ?_⟩
  rw [first]
  rfl

end Interpreter

end Scriptlet
