/-
Scriptlet.Proofs.Run.Blame — where a runtime error points.

An evaluation fails at one instruction, and every instruction belongs to one part of
the expression (`exists_part_of_mem_instructions`). The token of the error is the
operator or the name of that part, so it is a token of the source that is running, and
the words of the error tell what kind of part it is (`Expr.Refuses`). Nothing runs behind
the failure, and no evaluation declares a name: a variable that was missing then is
missing afterwards.

  §1 What operators refuse.
  §2 The part that fails.
  §3 The statement that fails.
  §4 What the words of an error tell.
  §5 Sessions.
-/
import Scriptlet.Proofs.Run.Interruption
import Scriptlet.Proofs.Token.Location
import Scriptlet.Proofs.Tree.Parts

namespace Scriptlet

open Token (Kind)

/-! ## §1 What operators refuse -/

namespace Token

/-- The kinds of operators between two numbers. -/
def Kind.numericOperators : List Kind :=
  [.minus, .star, .slash, .greater, .greaterEqual, .less, .lessEqual]

variable {operator : Token} {v w : Value} {error : RuntimeError}

/-- Of the operators before an operand only the minus refuses some. -/
theorem eq_of_applyUnary (isOperator : operator.kind = .bang ∨ operator.kind = .minus)
    (refused : operator.applyUnary v = .error error) :
    operator.kind = .minus ∧ error = ⟨.operandNotNumber, operator⟩ := by
  unfold applyUnary at refused
  rcases isOperator with kind | kind
  · rw [kind] at refused
    cases refused
  · refine ⟨kind, ?_⟩
    rw [kind] at refused
    cases v <;> cases refused <;> rfl

theorem eq_of_applyToNumbers {f : Double → Double → Value}
    (refused : operator.applyToNumbers f v w = .error error) :
    error = ⟨.operandsNotNumbers, operator⟩ := by
  unfold applyToNumbers at refused
  split at refused <;> cases refused
  rfl

theorem eq_of_applyPlus (refused : operator.applyPlus v w = .error error) :
    error = ⟨.operandsNotAddable, operator⟩ := by
  unfold applyPlus at refused
  split at refused <;> cases refused
  rfl

/-- A plus and the operators between numbers refuse some operands, each with its own cause. -/
theorem eq_of_applyBinary (isOperator : operator.kind ∈ Kind.binaryOperators)
    (refused : operator.applyBinary v w = .error error) :
    operator.kind = .plus ∧ error = ⟨.operandsNotAddable, operator⟩ ∨
      operator.kind ∈ Kind.numericOperators ∧ error = ⟨.operandsNotNumbers, operator⟩ := by
  unfold applyBinary at refused
  split at refused
  case h_1 kind => exact .inl ⟨kind, eq_of_applyPlus refused⟩
  case h_9 | h_10 => cases refused
  case h_11 => simp_all [Kind.binaryOperators]
  all_goals
    rename_i kind
    exact .inr ⟨by rw [kind]; decide, eq_of_applyToNumbers refused⟩

end Token

/-! ## §2 The part that fails -/

section Missing

variable {s : Scope} {name : Text}

theorem Scope.not_mem_names (missing : s.contains name = false) : name ∉ s.names := by
  intro mem
  rw [(s.contains_iff_mem_keys name).mpr mem] at missing
  cases missing

theorem Scope.not_mem_names_of_get? (missing : s.get? name = none) : name ∉ s.names :=
  not_mem_names (by rw [OrderedMap.contains, missing]; rfl)

theorem Scope.not_mem_names_of_assign? {v : Value} (missing : s.assign? name v = none) :
    name ∉ s.names :=
  not_mem_names (by rw [← s.isSome_assign? name v, missing]; rfl)

end Missing

namespace Expr

/-- What is left to do for an expression when its operands have their values. -/
def instruction? : Expr → Option Instruction
  | .literal v => some (.push v)
  | .group _ => none
  | .unary operator _ => some (.unary operator)
  | .binary _ operator _ => some (.binary operator)
  | .var name => some (.load name)
  | .assign name _ => some (.store name)
  | .misfit what => some (.halt what)

/-- Every instruction of an expression is that of one of its parts. -/
theorem exists_part_of_mem_instructions {e : Expr} {i : Instruction} (mem : i ∈ e.instructions) :
    ∃ part ∈ e.parts, part.instruction? = some i := by
  induction e with
  | literal v | var name | misfit what =>
    obtain rfl := List.mem_singleton.mp mem
    exact ⟨_, List.mem_cons_self, rfl⟩
  | group inner ih =>
    obtain ⟨part, inside, own⟩ := ih mem
    exact ⟨part, List.mem_cons_of_mem _ inside, own⟩
  | unary operator inner ih | assign name inner ih =>
    rcases List.mem_append.mp mem with mem | mem
    · obtain ⟨part, inside, own⟩ := ih mem
      exact ⟨part, List.mem_cons_of_mem _ inside, own⟩
    · obtain rfl := List.mem_singleton.mp mem
      exact ⟨_, List.mem_cons_self, rfl⟩
  | binary left operator right ihl ihr =>
    rw [instructions, List.mem_append, List.mem_append] at mem
    rcases mem with mem | mem | mem
    · obtain ⟨part, inside, own⟩ := ihl mem
      exact ⟨part, List.mem_cons_of_mem _ (List.mem_append_left _ inside), own⟩
    · obtain ⟨part, inside, own⟩ := ihr mem
      exact ⟨part, List.mem_cons_of_mem _ (List.mem_append_right _ inside), own⟩
    · obtain rfl := List.mem_singleton.mp mem
      exact ⟨_, List.mem_cons_self, rfl⟩

/-- `e.Refuses s error`: in the scope `s`, with the values of its operands there, an expression can
fail with the error. -/
inductive Refuses : Expr → Scope → RuntimeError → Prop where
  | var {name : Token} {s : Scope} (missing : name.lexeme ∉ s.names) :
      Refuses (.var name) s ⟨.undefinedVariable, name⟩
  | assign {name : Token} {value : Expr} {s : Scope} (missing : name.lexeme ∉ s.names) :
      Refuses (.assign name value) s ⟨.undefinedVariable, name⟩
  | unary {operator : Token} {operand : Expr} {s : Scope} (kind : operator.kind = .minus) :
      Refuses (.unary operator operand) s ⟨.operandNotNumber, operator⟩
  | plus {left right : Expr} {operator : Token} {s : Scope} (kind : operator.kind = .plus) :
      Refuses (.binary left operator right) s ⟨.operandsNotAddable, operator⟩
  | numeric {left right : Expr} {operator : Token} {s : Scope}
      (kind : operator.kind ∈ Kind.numericOperators) :
      Refuses (.binary left operator right) s ⟨.operandsNotNumbers, operator⟩

/-- A well-formed expression whose instruction fails refuses with that error. -/
theorem refuses_of_fails {e : Expr} (wellFormed : e.WellFormed) {i : Instruction}
    (own : e.instruction? = some i) {stack : List Value} {s : Scope} {error : RuntimeError}
    (fails : i.Fails ⟨stack, s⟩ (.runtime error)) : e.Refuses s error := by
  cases e with
  | literal v => cases own; cases fails
  | group inner => cases own
  | unary operator operand =>
    cases own
    cases fails with
    | unary refused =>
      obtain ⟨kind, rfl⟩ := Token.eq_of_applyUnary wellFormed.1 refused
      exact .unary kind
  | binary left operator right =>
    cases own
    cases fails with
    | binary refused =>
      rcases Token.eq_of_applyBinary wellFormed.1 refused with ⟨kind, rfl⟩ | ⟨kind, rfl⟩
      · exact .plus kind
      · exact .numeric kind
  | var name =>
    cases own
    cases fails with
    | load missing => exact .var (Scope.not_mem_names_of_get? missing)
  | assign name value =>
    cases own
    cases fails with
    | store missing => exact .assign (Scope.not_mem_names_of_assign? missing)
  | misfit what => exact wellFormed.elim

end Expr

/-! ## §3 The statement that fails -/

/-- There is no misfit in a well-formed expression. -/
theorem Expr.WellFormed.isWhole {e : Expr} (h : e.WellFormed) : e.isWhole = true := by
  induction e with
  | literal v | var name => rfl
  | group inner ih => exact ih h
  | unary operator operand ih => exact ih h.2
  | binary left operator right ihl ihr => exact Bool.and_eq_true_iff.mpr ⟨ihl h.2.1, ihr h.2.2⟩
  | assign name value ih => exact ih h.2
  | misfit what => exact h.elim

theorem Stmt.WellFormed.isWhole {stmt : Stmt} (h : stmt.WellFormed) : stmt.isWhole = true := by
  match stmt with
  | .expression e | .print e => exact Expr.WellFormed.isWhole h
  | .var name none => rfl
  | .var name (some e) => exact Expr.WellFormed.isWhole h.2
  | .misfit what => exact h.elim

theorem Stmt.parts_of_operand? {stmt : Stmt} {e : Expr} (h : stmt.operand? = some e) :
    stmt.parts = e.parts := by
  match stmt with
  | .expression _ | .print _ | .var _ (some _) =>
    obtain rfl := Option.some.inj h
    rfl
  | .var _ none | .misfit _ => cases h

/-- A statement made of tokens fails where one of its parts refuses, in the scope that is left. -/
theorem Stmt.MadeOf.exists_refuses {ts : List Token} {stmt : Stmt} (h : stmt.MadeOf ts) {s : Scope}
    {f : Fault} (failed : (stmt.execute s).fault = some f) :
    ∃ error, f = .runtime error ∧
      ∃ part ∈ stmt.parts, part.Refuses (stmt.execute s).scope error := by
  obtain ⟨e, s', operand, whole, ran, effect⟩ := stmt.execute_fault h.wellFormed.isWhole failed
  obtain ⟨error, rfl, done, step, rest, stack, -, split, -, fails, -⟩ :=
    e.exists_leavesOff whole ran
  obtain ⟨part, inside, own⟩ : ∃ part ∈ e.parts, part.instruction? = some step :=
    Expr.exists_part_of_mem_instructions (by simp [split])
  rw [← Stmt.parts_of_operand? operand] at inside
  refine ⟨error, rfl, part, inside, ?_⟩
  rw [effect]
  exact Expr.refuses_of_fails (h.of_mem_parts part inside).wellFormed own fails

theorem Expr.Refuses.cause_foreseen {e : Expr} {s : Scope} {error : RuntimeError}
    (h : e.Refuses s error) : error.cause ∈ RuntimeError.Cause.foreseen := by
  cases h <;> simp [RuntimeError.Cause.foreseen]

/-- The token of an error is one of those that the part is made of. -/
theorem Expr.Refuses.token_mem {ts : List Token} {e : Expr} {s : Scope} {error : RuntimeError}
    (h : e.Refuses s error) (made : e.MadeOf ts) : error.token ∈ ts := by
  refine Token.mem_of_whole (made.residues ?_)
  cases h with
  | var | assign | unary => exact List.mem_cons_self
  | plus | numeric => exact List.mem_append_right _ List.mem_cons_self

/-! ## §4 What the words of an error tell -/

namespace RuntimeError

variable {cause cause' : Cause}

/-- The words for a missing variable begin as no other words do. -/
theorem head?_message (foreseen : cause ∈ Cause.foreseen) (token : Token) :
    (message ⟨cause, token⟩).head? = some (.char 'U') ↔ cause = .undefinedVariable := by
  have begins : (message ⟨cause, token⟩).head? = (message ⟨cause, default⟩).head? := by
    cases cause <;> rfl
  have first : ∀ c ∈ Cause.foreseen,
      (message ⟨c, default⟩).head? = some (.char 'U') ↔ c = .undefinedVariable := by
    decide +kernel
  rw [begins, first cause foreseen]

/-- Only the words for a missing variable tell its name; those for the other foreseen causes are
always the same. -/
theorem message_eq_of_ne (foreseen : cause ∈ Cause.foreseen) (other : cause ≠ .undefinedVariable)
    (token : Token) : message ⟨cause, token⟩ = message ⟨cause, default⟩ := by
  match cause with
  | .undefinedVariable => exact absurd rfl other
  | .operandNotNumber | .operandsNotNumbers | .operandsNotAddable => rfl
  | .unknownUnary | .unknownBinary => simp [Cause.foreseen] at foreseen

/-- The foreseen causes have words of their own, and those for a missing variable tell its name. -/
theorem cause_of_message {e : RuntimeError} (foreseen : e.cause ∈ Cause.foreseen)
    (foreseen' : cause' ∈ Cause.foreseen) {token' : Token}
    (same : e.message = message ⟨cause', token'⟩) :
    e.cause = cause' ∧ (cause' = .undefinedVariable → e.token.lexeme = token'.lexeme) := by
  obtain ⟨cause, token⟩ := e
  have undefined : cause = .undefinedVariable ↔ cause' = .undefinedVariable := by
    rw [← head?_message foreseen token, ← head?_message foreseen' token', same]
  by_cases missing : cause' = .undefinedVariable
  · obtain rfl := undefined.mpr missing
    subst missing
    exact ⟨rfl, fun _ => List.append_cancel_left (List.append_cancel_right same)⟩
  · have own : ∀ c ∈ Cause.foreseen, ∀ c' ∈ Cause.foreseen,
        message ⟨c, default⟩ = message ⟨c', default⟩ → c = c' := by decide +kernel
    rw [message_eq_of_ne foreseen (mt undefined.mp missing),
      message_eq_of_ne foreseen' missing] at same
    exact ⟨own _ foreseen _ foreseen' same, fun h => absurd h missing⟩

end RuntimeError

/-! ## §5 Sessions -/

/-- An expression somewhere in the program of a source. -/
def Text.HasPart (source : Text) (part : Expr) : Prop :=
  ∃ stmt, some stmt ∈ source.parse.entries ∧ part ∈ stmt.parts

/-- A source that is run stops where one part of it refuses, in the scope that is left. -/
theorem Text.exists_refuses {source : Text} (quiet : source.parse.diagnostics = []) {s : Scope}
    {error : RuntimeError}
    (stopped : (executeAll source.parse.entries s).fault = some (.runtime error)) :
    ∃ part, source.HasPart part ∧ part.MadeOf source.lex.tokens ∧
      part.Refuses (executeAll source.parse.entries s).scope error := by
  obtain ⟨before, entry, after, split, -, failed, scope⟩ := executeAll_stops stopped
  obtain ⟨stmts, entries, -⟩ := wellFormed_of_parse quiet
  have mem : entry ∈ source.parse.entries := by simp [split]
  obtain ⟨stmt, -, rfl⟩ : ∃ stmt ∈ stmts, some stmt = entry := by
    rw [entries] at mem
    exact List.mem_map.mp mem
  have made := madeOf_of_parse quiet mem
  obtain ⟨_, same, part, inside, refuses⟩ := made.exists_refuses failed
  cases same
  refine ⟨part, ⟨stmt, mem, inside⟩, made.of_mem_parts part inside, ?_⟩
  rw [scope]
  exact refuses

/-- A session reports the error of a source, which one of its parts refuses with. -/
theorem Session.exists_refuses {s : Session} {source : Text} {error : RuntimeError}
    (reported : (s.run source).2.fault = some (.runtime error)) :
    (s.run source).2.stderr = error.report ∧
    ∃ part, source.HasPart part ∧ part.MadeOf source.lex.tokens ∧
      part.Refuses (s.run source).1.scope error := by
  rcases s.refused_or_quiet source with noted | ⟨clear, quiet⟩
  · rw [run_of_hadError noted] at reported
    cases reported
  · rw [run_of_quiet clear quiet] at reported ⊢
    have stopped : (executeAll source.parse.entries s.scope).fault = some (.runtime error) :=
      reported
    refine ⟨?_, Text.exists_refuses quiet stopped⟩
    simp only [Transcript.stderr, stopped]
    rfl

/-- **A runtime error points at the right place.** If running a source in a session ends in a
runtime error, this error is what is reported, and it has one of four causes. It points at a token
of that source, and so at one of its lines. The words for an undefined variable are said of a name,
and there is no such variable afterwards. Those about one operand are said of a minus in front of
an operand, those about two numbers or two strings of a plus, and those about two numbers of another
operator between operands. -/
theorem errors_point_at_source (s : Session) (source : Text) (e : RuntimeError)
    (reported : (s.run source).2.fault = some (.runtime e)) :
    (s.run source).2.stderr = e.report ∧ e.cause ∈ RuntimeError.Cause.foreseen ∧
    e.token ∈ source.lex.tokens ∧ source.HasLine e.line ∧
    (∀ name, e.message = Text.ofString "Undefined variable '" ++ name ++ Text.ofString "'." →
      e.token.kind = .name ∧ e.token.lexeme = name ∧ name ∉ (s.run source).1.scope.names) ∧
    (e.message = Text.ofString "Operand must be a number." →
      e.token.kind = .minus ∧ ∃ operand, source.HasPart (.unary e.token operand)) ∧
    (e.message = Text.ofString "Operands must be two numbers or two strings." →
      e.token.kind = .plus ∧ ∃ left right, source.HasPart (.binary left e.token right)) ∧
    (e.message = Text.ofString "Operands must be a number." →
      e.token.kind ∈ Kind.numericOperators ∧
        ∃ left right, source.HasPart (.binary left e.token right)) := by
  obtain ⟨report, part, has, made, refuses⟩ := Session.exists_refuses reported
  have foreseen := refuses.cause_foreseen
  have mem := refuses.token_mem made
  refine ⟨report, foreseen, mem, Text.hasLine_of_mem_lex (List.mem_append_left _ mem),
    ?_, ?_, ?_, ?_⟩
  · intro name said
    have same : e.message =
        RuntimeError.message ⟨.undefinedVariable, { e.token with lexeme := name }⟩ := said
    obtain ⟨cause, lexeme⟩ := RuntimeError.cause_of_message foreseen (by decide) same
    have lexeme : e.token.lexeme = name := lexeme rfl
    cases refuses with
    | var missing => exact ⟨made.wellFormed.1, lexeme, lexeme ▸ missing⟩
    | assign missing => exact ⟨made.wellFormed.1.1, lexeme, lexeme ▸ missing⟩
    | unary | plus | numeric => cases cause
  · intro said
    have same : e.message = RuntimeError.message ⟨.operandNotNumber, e.token⟩ := said
    obtain ⟨cause, -⟩ := RuntimeError.cause_of_message foreseen (by decide) same
    cases refuses with
    | unary kind => exact ⟨kind, _, has⟩
    | var | assign | plus | numeric => cases cause
  · intro said
    have same : e.message = RuntimeError.message ⟨.operandsNotAddable, e.token⟩ := said
    obtain ⟨cause, -⟩ := RuntimeError.cause_of_message foreseen (by decide) same
    cases refuses with
    | plus kind => exact ⟨kind, _, _, has⟩
    | var | assign | unary | numeric => cases cause
  · intro said
    have same : e.message = RuntimeError.message ⟨.operandsNotNumbers, e.token⟩ := said
    obtain ⟨cause, -⟩ := RuntimeError.cause_of_message foreseen (by decide) same
    cases refuses with
    | numeric kind => exact ⟨kind, _, _, has⟩
    | var | assign | unary | plus => cases cause

/-- A source of four lines that declares a variable. -/
def declaringSource : Text := "var s\n=\n\"x\"\n;"

/-- A source of two lines with a minus between operands and one in front of an operand. -/
def negatingSource : Text := "print 2\n- -s;"

/-- Of the two minus signs the error points at the one in front of the operand, in the second line,
although the operand got its value from the third line of another source. -/
theorem errors_point_at_source_negating :
    let s := ((Session.start false).run declaringSource).1
    let sign : Token := ⟨.minus, "-", none, 2, 2⟩
    (s.run negatingSource).2.fault = some (.runtime ⟨.operandNotNumber, sign⟩) ∧
      (s.run negatingSource).2.stderr = "Operand must be a number.\n[line 2]\n" ∧
      sign ∈ negatingSource.lex.tokens ∧ negatingSource.HasLine 2 ∧
      ∃ operand, negatingSource.HasPart (.unary sign operand) := by
  intro s sign
  have reported : (s.run negatingSource).2.fault =
      some (.runtime ⟨.operandNotNumber, sign⟩) := by decide +kernel
  obtain ⟨report, -, mem, line, -, operand, -⟩ := errors_point_at_source s negatingSource _ reported
  exact ⟨reported, report.trans (by decide +kernel), mem, line, (operand rfl).2⟩

end Scriptlet
