/-
Scriptlet.Proofs.Tree.Budget — a larger budget changes nothing but complaints about nesting.

The budget is looked at only to refuse an expression. So an action does the same
with more of it, unless it ended with the complaint that the nesting was too deep
(`Approximates`). A program about which that complaint was not made is read alike
with every larger budget (`parse_of_shallow`).

Together with the frames that the tokens take this says what the budget is for
(`budget_spent_on_nesting`). It is enough wherever the tokens fit, a program that it
is enough for does fit, and beyond that it makes no difference.

  §1 Actions with less budget.
  §2 Reading with less budget.
  §3 Programs.
-/
import Scriptlet.Proofs.Tree.Pace

namespace Scriptlet

open Token (Kind)

namespace Parser

/-! ## §1 Actions with less budget -/

variable {α β : Type} {p p' q q' : Action α} {f f' : α → Action β} {s s' : State}

/-- The first action does what the second does, unless the nesting is too deep for it. -/
def Approximates (p p' : Action α) : Prop := ∀ s, Agrees (p s) (p' s)

namespace Approximates

theorem refl (p : Action α) : Approximates p p := fun s => .refl (p s)

theorem bind (hp : Approximates p p') (hf : ∀ a, Approximates (f a) (f' a)) :
    Approximates (p >>= f) (p' >>= f') := by
  intro s
  rcases hp s with same | ⟨s₁, deep⟩
  · cases h : p' s with
    | ok a s₁ =>
      rw [bind_ok (same.trans h), bind_ok h]
      exact hf a s₁
    | error c s₁ =>
      rw [bind_error (same.trans h), bind_error h]
      exact .refl _
  · exact .inr ⟨s₁, bind_error deep⟩

/-- Actions that begin alike differ in how they go on only. -/
theorem bind_left (hf : ∀ a, Approximates (f a) (f' a)) : Approximates (p >>= f) (p >>= f') :=
  bind (refl p) hf

theorem ifAccept (kinds : List Kind) (hp : Approximates p p') (hq : Approximates q q') :
    Approximates (do if (← accept? kinds).isSome then p else q)
      (do if (← accept? kinds).isSome then p' else q') := by
  refine bind_left fun found => ?_
  cases found with
  | none => exact hq
  | some _ => exact hp

variable {operators : List Kind} {operand operand' : Action Expr}

theorem chainOnto (h : Approximates operand operand') (rounds : List Token) : ∀ left : Expr,
    Approximates (Parser.chainOnto operators operand rounds left)
      (Parser.chainOnto operators operand' rounds left) := by
  induction rounds with
  | nil => exact fun left => refl _
  | cons _ rounds ih =>
    intro left
    refine bind_left fun found => ?_
    cases found with
    | none => exact refl _
    | some operator => exact bind h fun right => ih _

theorem chain (h : Approximates operand operand') :
    Approximates (Parser.chain operators operand) (Parser.chain operators operand') :=
  bind h fun first => bind_left fun s => chainOnto h s.cursor.ahead first

end Approximates

/-! ## §2 Reading with less budget -/

/-- All functions for expressions, by induction on the lesser budget. -/
theorem approximates_read (budget : Nat) : ∀ {more : Nat}, budget ≤ more → ∀ c : Category,
    Approximates (c.read budget) (c.read more) := by
  induction budget with
  | zero =>
    intro more _ c s
    rw [c.read_zero]
    exact .inr ⟨_, refuse_eq _ s⟩
  | succ budget ih =>
    intro more le c
    obtain ⟨more, rfl⟩ : ∃ m, more = m + 1 := ⟨more - 1, by omega⟩
    have ih := ih (Nat.le_of_succ_le_succ le)
    cases c with
    | assignment =>
      refine .bind (ih .equality) fun left => .bind_left fun found => ?_
      cases found with
      | none => exact .refl _
      | some sign => exact .bind (ih .assignment) fun right => .refl _
    | unary =>
      refine .bind_left fun found => ?_
      cases found with
      | none => exact ih .primary
      | some operator => exact .bind (ih .unary) fun operand => .refl _
    | primary =>
      refine .ifAccept _ (.refl _) (.ifAccept _ (.refl _) (.ifAccept _ (.refl _)
        (.bind_left fun found => ?_)))
      cases found with
      | some t => exact .refl _
      | none =>
        refine .bind_left fun found => ?_
        cases found with
        | some t => exact .refl _
        | none => exact .ifAccept _ (.bind (ih .assignment) fun inner => .refl _) (.refl _)
    | equality | comparison | term | factor =>
      rw [Category.read_succ_of_operators rfl (by decide),
        Category.read_succ_of_operators rfl (by decide)]
      exact .chain (ih _)

variable {budget more : Nat}

theorem approximates_attempt (le : budget ≤ more) :
    Approximates (attempt budget) (attempt more) := by
  have expression : Approximates (expression budget) (expression more) :=
    approximates_read budget le .assignment
  refine .ifAccept _ (.bind_left fun name => .ifAccept _ ?_ (.refl _)) (.ifAccept _ ?_ ?_)
  · exact .bind (.bind expression fun e => .refl _) fun initial => .refl _
  · exact .bind expression fun e => .refl _
  · exact .bind expression fun e => .refl _

/-! ## §3 Programs -/

/-- A declaration about whose nesting nothing is said is read alike with more budget. -/
theorem declaration_of_shallow (le : budget ≤ more) {entry : Entry}
    (read : declaration budget s = .ok entry s') (shallow : Shallow s'.diagnostics) :
    declaration more s = .ok entry s' := by
  rw [declaration_eq] at read ⊢
  rcases approximates_attempt le s with same | ⟨s₁, deep⟩
  · rwa [← same]
  · rw [deep] at read
    injection read with _ hs
    subst hs
    obtain ⟨d, hd, about⟩ := exists_nestingTooDeep deep []
    exact absurd about (shallow d (by simpa using hd))

theorem entries_of_shallow (le : budget ≤ more) (rounds : List Token) :
    ∀ {s s' : State} {es : List Entry}, entries budget rounds s = .ok es s' →
      Shallow s'.diagnostics → entries more rounds s = .ok es s' := by
  induction rounds with
  | nil => exact fun run _ => run
  | cons t rounds ih =>
    intro s s' es run shallow
    by_cases done : s.cursor.ahead = []
    · rw [entries_at_end budget _ done] at run
      rw [entries_at_end more _ done, run]
    · obtain ⟨entry, s₁, ds₁, first, diag₁⟩ := declaration_extends budget s
      obtain ⟨others, s₂, ds, rest, diag⟩ := entries_extends budget rounds s₁
      rw [entries_of_declaration done first rest] at run
      injection run with hes hs
      subst hes hs
      have early : Shallow s₁.diagnostics := by
        intro d hd
        exact shallow d (by rw [diag]; exact List.mem_append_left _ hd)
      exact entries_of_declaration done (declaration_of_shallow le first early) (ih rest shallow)

end Parser

open Scriptlet.Parser (Shallow)

namespace Lexed

/-- Tokens about whose nesting nothing is said are read alike with more budget. -/
theorem parse_of_shallow {l : Lexed} {budget more : Nat} (le : budget ≤ more)
    (shallow : Shallow (l.parse budget).2) : l.parse more = l.parse budget := by
  obtain ⟨es, s, ds, run, diag⟩ :=
    Parser.entries_extends budget l.tokens ⟨.start l.tokens l.last, []⟩
  have whole : Parser.program budget ⟨.start l.tokens l.last, []⟩ = .ok es s := run
  rw [parse, whole] at shallow
  have again : Parser.program more ⟨.start l.tokens l.last, []⟩ = .ok es s :=
    Parser.entries_of_shallow le l.tokens run shallow
  rw [parse, parse, whole, again]

/-- **The budget is for nesting, and shows nowhere else.** Where at every token no more frames are
pending than the budget has, no nesting is reported as too deep, however long the chains of
operators are and whatever else is wrong with the tokens. For a program that is also necessary, if
the budget has the seven frames that any expression takes. And where no nesting is reported, every
larger budget gives the same entries and the same diagnostics. -/
theorem budget_spent_on_nesting (l : Lexed) (budget : Nat) :
    (Nesting.Fits budget .start l.tokens →
      ∀ d ∈ (l.parse budget).2, d.complaint ≠ .nestingTooDeep) ∧
    (7 ≤ budget → (∃ stmts, Program l.tokens stmts) →
      (∀ d ∈ (l.parse budget).2, d.complaint ≠ .nestingTooDeep) →
      Nesting.Fits budget .start l.tokens) ∧
    ∀ more, budget ≤ more → (∀ d ∈ (l.parse budget).2, d.complaint ≠ .nestingTooDeep) →
      l.parse more = l.parse budget := by
  refine ⟨shallow_of_fits, ?_, fun more le => parse_of_shallow le⟩
  rintro enough ⟨stmts, program⟩ shallow
  rcases Parser.parse_of_program budget program with h | ⟨d, hd, deep⟩
  · exact fits_of_quiet enough (by rw [h])
  · exact absurd deep (shallow d hd)

/-- A source with a sign, operators in front, a parenthesis and chains. At the last name of its
first statement 17 frames are pending: seven for the statement's expression, one for the sign and
one for the minus, seven for the parenthesis and one for the exclamation mark. -/
def nestedSource : Text := "a = -(1 + 2 * 3 < !b); print a + a + a;"

/-- With 17 frames nothing is reported, and no larger budget makes a difference. With one frame less
the nesting is too deep. -/
theorem budget_spent_on_nesting_tight :
    Nesting.Fits 17 .start nestedSource.lex.tokens ∧
    ¬ Nesting.Fits 16 .start nestedSource.lex.tokens ∧
    (nestedSource.lex.parse 17).2 = [] ∧
    nestedSource.lex.parse Parser.nestingBudget = nestedSource.lex.parse 17 ∧
    ∃ d ∈ (nestedSource.lex.parse 16).2, d.complaint = .nestingTooDeep := by
  have fits : Nesting.Fits 17 .start nestedSource.lex.tokens := by decide +kernel
  have tight : ¬ Nesting.Fits 16 .start nestedSource.lex.tokens := by decide +kernel
  have quiet : (nestedSource.lex.parse 17).2 = [] := by decide +kernel
  obtain ⟨enough, -, larger⟩ := budget_spent_on_nesting nestedSource.lex 17
  refine ⟨fits, tight, quiet, larger _ (by decide) (enough fits), ?_⟩
  obtain ⟨stmts, -, program⟩ := program_of_parse quiet
  have necessary := (budget_spent_on_nesting nestedSource.lex 16).2.1 (by decide) ⟨stmts, program⟩
  exact Classical.byContradiction fun none =>
    tight (necessary fun d hd deep => none ⟨d, hd, deep⟩)

end Lexed

end Scriptlet
