/-
Scriptlet.Proofs.Tree.Parts — the expressions in a tree, and the tokens they are made of.

The parts of an expression are the expression itself and the parts of its operands.
What passes from every expression to its operands holds of all parts of an expression
of which it holds (`forall_mem_parts`). One such thing is to be made of the tokens of a
source: reading a source without a diagnostic gives statements all of whose parts are
(`Stmt.MadeOf.of_mem_parts`).

  §1 Parts.
  §2 Trees made of tokens.
  §3 Trees read from a source.
-/
import Scriptlet.Proofs.Run.Safety

namespace Scriptlet

/-! ## §1 Parts -/

namespace Expr

/-- The expressions that stand directly in an expression. -/
def children : Expr → List Expr
  | .literal _ | .var _ | .misfit _ => []
  | .group inner => [inner]
  | .unary _ operand => [operand]
  | .binary left _ right => [left, right]
  | .assign _ value => [value]

/-- An expression and everything that stands in it. -/
def parts : Expr → List Expr
  | .literal v => [.literal v]
  | .group inner => .group inner :: inner.parts
  | .unary operator operand => .unary operator operand :: operand.parts
  | .binary left operator right => .binary left operator right :: (left.parts ++ right.parts)
  | .var name => [.var name]
  | .assign name value => .assign name value :: value.parts
  | .misfit what => [.misfit what]

theorem self_mem_parts (e : Expr) : e ∈ e.parts := by
  cases e <;> exact List.mem_cons_self

/-- What passes from every expression to its children holds of all parts. -/
theorem forall_mem_parts {P : Expr → Prop} (down : ∀ e, P e → ∀ x ∈ e.children, P x) {e : Expr}
    (h : P e) : ∀ x ∈ e.parts, P x := by
  induction e with
  | literal v | var name | misfit what => exact List.forall_mem_singleton.mpr h
  | group inner ih | unary operator inner ih | assign name inner ih =>
    exact List.forall_mem_cons.mpr ⟨h, ih (down _ h inner List.mem_cons_self)⟩
  | binary left operator right ihl ihr =>
    have first := ihl (down _ h left List.mem_cons_self)
    have second := ihr (down _ h right (List.mem_cons_of_mem _ List.mem_cons_self))
    exact List.forall_mem_cons.mpr ⟨h, List.forall_mem_append.mpr ⟨first, second⟩⟩

end Expr

/-- The expressions in a statement. -/
def Stmt.parts : Stmt → List Expr
  | .expression e | .print e | .var _ (some e) => e.parts
  | .var _ none | .misfit _ => []

/-! ## §2 Trees made of tokens -/

section Residues

variable {ts : List Token}

/-- A token that is kept whole is one of those that were there. -/
theorem Token.mem_of_whole {t : Token} (h : .whole t ∈ ts.map Token.residue) : t ∈ ts := by
  obtain ⟨u, mem, kept⟩ := List.mem_map.mp h
  unfold residue at kept
  split at kept
  · cases kept
  · split at kept
    · obtain rfl := Residue.whole.inj kept
      exact mem
    · cases kept

/-- A value that is kept is that of a token. -/
theorem Token.exists_of_value {v : Value} (h : .value v ∈ ts.map Token.residue) :
    ∃ t ∈ ts, t.constant? = some v := by
  obtain ⟨t, mem, kept⟩ := List.mem_map.mp h
  refine ⟨t, mem, ?_⟩
  unfold residue at kept
  split at kept
  · next found => rw [found, Residue.value.inj kept]
  · split at kept <;> cases kept

end Residues

/-- `e.MadeOf ts`: the expression is well formed, and what it keeps it has from the tokens. -/
structure Expr.MadeOf (ts : List Token) (e : Expr) : Prop where
  wellFormed : e.WellFormed
  residues : e.residues ⊆ ts.map Token.residue

/-- `stmt.MadeOf ts`: the statement is well formed, and what it keeps it has from the tokens. -/
structure Stmt.MadeOf (ts : List Token) (stmt : Stmt) : Prop where
  wellFormed : stmt.WellFormed
  residues : stmt.residues ⊆ ts.map Token.residue

section MadeOf

variable {ts : List Token}

/-- What stands in an expression is made of the same tokens. -/
theorem Expr.MadeOf.of_mem_children {e : Expr} (h : e.MadeOf ts) :
    ∀ x ∈ e.children, x.MadeOf ts := by
  obtain ⟨wellFormed, residues⟩ := h
  cases e with
  | literal v | var name | misfit what => exact List.forall_mem_nil _
  | group inner =>
    simp only [Expr.residues, List.cons_subset, List.append_subset] at residues
    exact List.forall_mem_singleton.mpr ⟨wellFormed, residues.2.1⟩
  | unary operator operand =>
    simp only [Expr.residues, List.cons_subset] at residues
    exact List.forall_mem_singleton.mpr ⟨wellFormed.2, residues.2⟩
  | binary left operator right =>
    simp only [Expr.residues, List.cons_subset, List.append_subset] at residues
    exact List.forall_mem_cons.mpr ⟨⟨wellFormed.2.1, residues.1⟩,
      List.forall_mem_singleton.mpr ⟨wellFormed.2.2, residues.2.2⟩⟩
  | assign name value =>
    simp only [Expr.residues, List.cons_subset] at residues
    exact List.forall_mem_singleton.mpr ⟨wellFormed.2, residues.2.2⟩

/-- The expressions in a statement are made of its tokens. -/
theorem Stmt.MadeOf.of_mem_parts {stmt : Stmt} (h : stmt.MadeOf ts) :
    ∀ e ∈ stmt.parts, e.MadeOf ts := by
  have down := fun e (h : Expr.MadeOf ts e) => h.of_mem_children
  obtain ⟨wellFormed, residues⟩ := h
  match stmt with
  | .expression e =>
    simp only [Stmt.residues, List.append_subset] at residues
    exact Expr.forall_mem_parts down ⟨wellFormed, residues.1⟩
  | .print e =>
    simp only [Stmt.residues, List.cons_subset, List.append_subset] at residues
    exact Expr.forall_mem_parts down ⟨wellFormed, residues.2.1⟩
  | .var name (some e) =>
    simp only [Stmt.residues, List.cons_subset, List.append_subset] at residues
    exact Expr.forall_mem_parts down ⟨wellFormed.2, residues.2.2.2.1⟩
  | .var name none => exact List.forall_mem_nil _
  | .misfit what => exact List.forall_mem_nil _

end MadeOf

/-! ## §3 Trees read from a source -/

/-- What is read without a diagnostic is made of the tokens of the source. -/
theorem Text.madeOf_of_parse {source : Text} (quiet : source.parse.diagnostics = []) {stmt : Stmt}
    (mem : some stmt ∈ source.parse.entries) : stmt.MadeOf source.lex.tokens := by
  have quiet : source.lex.diagnostics ++ (source.lex.parse Parser.nestingBudget).2 = [] := quiet
  obtain ⟨stmts, entries, program⟩ :=
    Lexed.program_of_parse (List.append_eq_nil_iff.mp quiet).2
  have mem : some stmt ∈ (source.lex.parse Parser.nestingBudget).1 := mem
  rw [entries] at mem
  have mem : stmt ∈ stmts := by simpa using mem
  refine ⟨program.wellFormed source.namesVariable_of_mem_lex stmt mem, ?_⟩
  rw [program.map_residue]
  exact fun r kept => List.mem_flatMap.mpr ⟨stmt, mem, kept⟩

end Scriptlet
