/-
Scriptlet.Proofs.Tree.Recognition — what the parser accepts are the programs of the grammar.

Unless something is nested too deeply, reading tokens reports nothing exactly when
the grammar derives a program from them. The program is then the only one the
grammar derives, and its trees written out again are the tokens, up to what a tree
does not keep.

  §1 Trees written out again.
  §2 What is accepted is a program.
  §3 A program is accepted.
  §4 Recognition.
-/
import Scriptlet.Proofs.Tree.Completeness
import Scriptlet.Proofs.Tree.Recovery

namespace Scriptlet

open Token (Kind)

/-! ## §1 Trees written out again -/

/-- What a tree keeps of a token. -/
inductive Residue where
  /-- Of a literal, its value. -/
  | value (v : Value)
  /-- Of an operator or a name, everything. -/
  | whole (t : Token)
  /-- Of any other token, that there was one of its kind. -/
  | mark (kind : Kind)
deriving DecidableEq, Repr

/-- The kinds of token that trees keep whole: names, and operators before and between operands. -/
def Token.Kind.keptWhole : List Kind := .name :: (Parser.prefixes ++ Parser.levels.flatten)

/-- What a tree keeps of a token. -/
def Token.residue (t : Token) : Residue :=
  match t.constant? with
  | some v => .value v
  | none => if t.kind ∈ Kind.keptWhole then .whole t else .mark t.kind

/-- The residues of the tokens of an expression, in the order of the source. -/
def Expr.residues : Expr → List Residue
  | .literal v => [.value v]
  | .group inner => .mark .leftParen :: (inner.residues ++ [.mark .rightParen])
  | .unary operator operand => .whole operator :: operand.residues
  | .binary left operator right => left.residues ++ .whole operator :: right.residues
  | .var name => [.whole name]
  | .assign name value => .whole name :: .mark .equal :: value.residues
  | .misfit _ => []

/-- The residues of the tokens of a statement, in the order of the source. -/
def Stmt.residues : Stmt → List Residue
  | .expression e => e.residues ++ [.mark .semicolon]
  | .print e => .mark .printWord :: (e.residues ++ [.mark .semicolon])
  | .var name none => [.mark .varWord, .whole name, .mark .semicolon]
  | .var name (some e) =>
    .mark .varWord :: .whole name :: .mark .equal :: (e.residues ++ [.mark .semicolon])
  | .misfit _ => []

namespace Token

theorem residue_of_constant {t : Token} {v : Value} (h : t.constant? = some v) :
    t.residue = .value v := by
  rw [residue, h]

theorem residue_of_kept {t : Token} (h : t.kind ∈ Kind.keptWhole) : t.residue = .whole t := by
  have hn : t.constant? = none := by
    unfold constant?
    revert h
    cases t.kind <;> first | exact fun _ => rfl | exact fun h => absurd h (by decide)
  rw [residue, hn]
  exact if_pos h

theorem residue_of_name {t : Token} (h : t.kind = .name) : t.residue = .whole t :=
  residue_of_kept (by rw [h]; decide)

theorem residue_of_mark {t : Token} {k : Kind} (h : t.kind = k)
    (hk : k ∈ [Kind.leftParen, .rightParen, .equal, .semicolon, .printWord, .varWord]) :
    t.residue = .mark k := by
  subst h
  have hn : t.constant? = none ∧ t.kind ∉ Kind.keptWhole := by
    unfold constant?
    revert hk
    cases t.kind <;> first | exact fun _ => ⟨rfl, by decide⟩ | exact fun h => absurd h (by decide)
  rw [residue, hn.1]
  exact if_neg hn.2

end Token

namespace Derives

variable {c : Category} {ts signs : List Token} {e : Expr}

theorem operator_keptWhole {k : Kind} (h : k ∈ c.operators) : k ∈ Kind.keptWhole := by
  revert h
  cases c <;> revert k <;> decide

/-- Without misplaced signs, the tree of an expression written out is its tokens. -/
theorem map_residue (h : Derives c ts e signs) (none : signs = []) :
    ts.map Token.residue = e.residues := by
  induction h with
  | descend _ _ ih => exact ih none
  | @assign name sign ts value signs isName isEqual _ ih =>
    have hn : name.residue = .whole name := Token.residue_of_name isName
    have he : sign.residue = .mark .equal := Token.residue_of_mark isEqual (by decide)
    rw [List.map_cons, List.map_cons, hn, he, ih none]
    rfl
  | misassign => simp at none
  | @binary c d ls rs left right operator signs more _ isOperator _ _ ihl ihr =>
    obtain ⟨hl, hr⟩ := List.append_eq_nil_iff.mp none
    have ho : operator.residue = .whole operator :=
      Token.residue_of_kept (operator_keptWhole isOperator)
    rw [List.map_append, List.map_cons, ihl hl, ihr hr, ho]
    rfl
  | @unary operator ts operand signs isOperator _ ih =>
    have ho : operator.residue = .whole operator := by
      refine Token.residue_of_kept ?_
      rcases isOperator with h | h <;> rw [h] <;> decide
    rw [List.map_cons, ho, ih none]
    rfl
  | literal isConstant => exact congrArg (· :: []) (Token.residue_of_constant isConstant)
  | var isName => exact congrArg (· :: []) (Token.residue_of_name isName)
  | @group opening closing ts e signs isOpening _ isClosing ih =>
    have ho : opening.residue = .mark .leftParen := Token.residue_of_mark isOpening (by decide)
    have hc : closing.residue = .mark .rightParen := Token.residue_of_mark isClosing (by decide)
    rw [List.map_cons, List.map_append, ho, ih none, List.map_cons, hc]
    rfl

end Derives

theorem Declares.map_residue {ts : List Token} {stmt : Stmt} (h : Declares ts stmt []) :
    ts.map Token.residue = stmt.residues := by
  cases h with
  | @var word name stop isVar isName isStop =>
    have hw : word.residue = .mark .varWord := Token.residue_of_mark isVar (by decide)
    have hn : name.residue = .whole name := Token.residue_of_name isName
    have hs : stop.residue = .mark .semicolon := Token.residue_of_mark isStop (by decide)
    rw [List.map_cons, List.map_cons, List.map_cons, hw, hn, hs]
    rfl
  | @varWith word name sign stop ts e signs isVar isName isEqual initial isStop =>
    have hw : word.residue = .mark .varWord := Token.residue_of_mark isVar (by decide)
    have hn : name.residue = .whole name := Token.residue_of_name isName
    have he : sign.residue = .mark .equal := Token.residue_of_mark isEqual (by decide)
    have hs : stop.residue = .mark .semicolon := Token.residue_of_mark isStop (by decide)
    rw [List.map_cons, List.map_cons, List.map_cons, List.map_append, initial.map_residue rfl,
      List.map_cons, hw, hn, he, hs]
    rfl
  | @print word stop ts e signs isPrint value isStop =>
    have hw : word.residue = .mark .printWord := Token.residue_of_mark isPrint (by decide)
    have hs : stop.residue = .mark .semicolon := Token.residue_of_mark isStop (by decide)
    rw [List.map_cons, List.map_append, value.map_residue rfl, List.map_cons, hw, hs]
    rfl
  | @expression stop ts e signs inner isStop =>
    have hs : stop.residue = .mark .semicolon := Token.residue_of_mark isStop (by decide)
    rw [List.map_append, inner.map_residue rfl, List.map_cons, hs]
    rfl

/-- The trees of a program written out are its tokens, up to what trees do not keep. -/
theorem Program.map_residue {ts : List Token} {stmts : List Stmt} (h : Program ts stmts) :
    ts.map Token.residue = stmts.flatMap Stmt.residues := by
  induction h with
  | nil => rfl
  | cons first _ ih => rw [List.map_append, first.map_residue, ih, List.flatMap_cons]

/-! ## §2 What is accepted is a program -/

/-- A segment about which nothing was reported is a statement. -/
theorem Segment.declares_of_quiet {l : Lexed} {g : Segment} (fits : g.Fits l)
    (quiet : g.diagnostics l = []) :
    ∃ stmt, g.entry = some stmt ∧ Declares (g.tokens l) stmt [] := by
  obtain ⟨start, stop, entry, signs, failure⟩ := g
  obtain ⟨-, -, -, h⟩ := fits
  obtain ⟨noSigns, noFailure⟩ := List.append_eq_nil_iff.mp quiet
  have noSigns : signs = [] := List.map_eq_nil_iff.mp noSigns
  subst noSigns
  match entry, failure, h with
  | some stmt, none, ⟨declared, _⟩ => exact ⟨stmt, rfl, declared⟩
  | none, some _, _ => simp at noFailure

/-- Segments about which nothing was reported are the statements of a program. -/
theorem Segment.program_of_tile {l : Lexed} : ∀ {segments : List Segment} {p q : Nat},
    Tile p segments q → (∀ g ∈ segments, g.Fits l) →
    segments.flatMap (diagnostics l) = [] →
    ∃ stmts, segments.map entry = stmts.map some ∧ Program (l.slice p q) stmts
  | [], p, q, tile, _, _ => by
      have tile : p = q := tile
      refine ⟨[], rfl, ?_⟩
      rw [tile, Lexed.slice, Nat.sub_self, List.take_zero]
      exact .nil
  | g :: rest, p, q, ⟨hp, tile⟩, fits, quiet => by
      have fits' : ∀ g' ∈ rest, g'.Fits l := fun g' h => fits g' (List.mem_cons_of_mem g h)
      rw [List.flatMap_cons] at quiet
      obtain ⟨quiet₁, quiet₂⟩ := List.append_eq_nil_iff.mp quiet
      obtain ⟨stmt, he, declared⟩ := declares_of_quiet (fits g List.mem_cons_self) quiet₁
      obtain ⟨stmts, hm, program⟩ := program_of_tile tile fits' quiet₂
      have lt : g.start < g.stop := (fits g List.mem_cons_self).1
      have whole : g.tokens l ++ l.slice g.stop q = l.slice p q := by
        rw [← hp]
        exact slice_append (Nat.le_of_lt lt) (le_of_tile tile fits').1
      refine ⟨stmt :: stmts, ?_, ?_⟩
      · rw [List.map_cons, List.map_cons, he, hm]
      · rw [← whole]
        exact .cons declared program

/-- What is read without a diagnostic is a program of the grammar. -/
theorem Lexed.program_of_parse {l : Lexed} {budget : Nat} (quiet : (l.parse budget).2 = []) :
    ∃ stmts, (l.parse budget).1 = stmts.map some ∧ Program l.tokens stmts := by
  obtain ⟨segments, s, run, tile, fits, -, diag⟩ := Parser.program_segments l budget
  have hp : l.parse budget = (segments.map Segment.entry, s.diagnostics) := by
    rw [Lexed.parse, run]
  rw [hp] at quiet ⊢
  have quiet : segments.flatMap (Segment.diagnostics l) = [] := diag ▸ quiet
  have whole : l.slice 0 l.tokens.length = l.tokens := by simp [Lexed.slice]
  have h := Segment.program_of_tile tile fits quiet
  rwa [whole] at h

/-! ## §3 A program is accepted -/

namespace Parser

/-- At the end there is nothing more to read. -/
theorem entries_at_end {s : State} (budget : Nat) (rounds : List Token)
    (done : s.cursor.ahead = []) :
    entries budget rounds s = .ok [] s := by
  cases rounds with
  | nil => rfl
  | cons _ rounds =>
    have hend : atEnd s = .ok true s := by
      show EStateM.Result.ok s.cursor.ahead.isEmpty s = _
      rw [done]
      rfl
    rw [entries, bind_ok hend]
    rfl

/-- Elsewhere one entry is read, and then the others. -/
theorem entries_of_declaration {budget : Nat} {rounds : List Token} {t : Token} {s s₁ s₂ : State}
    {entry : Entry} {others : List Entry} (more : s.cursor.ahead ≠ [])
    (first : declaration budget s = .ok entry s₁)
    (rest : entries budget rounds s₁ = .ok others s₂) :
    entries budget (t :: rounds) s = .ok (entry :: others) s₂ := by
  have hend : atEnd s = .ok false s := by
    show EStateM.Result.ok s.cursor.ahead.isEmpty s = _
    rw [List.isEmpty_eq_false_iff.mpr more]
  rw [entries, bind_ok hend, if_neg Bool.false_ne_true, bind_ok first, bind_ok rest]
  rfl

/-- Reading programs never unwinds, and it comes to the end if it may go on for long enough. -/
theorem entries_step (budget : Nat) (rounds : List Token) : ∀ s : State,
    ∃ es s' ts ds, entries budget rounds s = .ok es s' ∧ Step s ts ds s' ∧
      (s.cursor.ahead.length ≤ rounds.length → s'.cursor.ahead = []) := by
  induction rounds with
  | nil =>
    exact fun s => ⟨[], s, [], [], rfl, .refl s,
      fun enough => List.eq_nil_of_length_eq_zero (Nat.le_zero.mp enough)⟩
  | cons t rounds ih =>
    intro s
    by_cases done : s.cursor.ahead = []
    · exact ⟨[], s, [], [], entries_at_end budget _ done, .refl s, fun _ => done⟩
    · obtain ⟨entry, s₁, ts, ds, first, step, passes⟩ := declaration_step budget s
      obtain ⟨es, s₂, us, es', others, step', ends⟩ := ih s₁
      refine ⟨entry :: es, s₂, _, _, entries_of_declaration done first others, step.trans step',
        fun enough => ends ?_⟩
      have pos := List.length_pos_iff.mpr (passes done)
      rw [step.ahead, List.length_append, List.length_cons] at enough
      omega

/-- Reading a declaration takes no diagnostic back. -/
theorem declaration_extends (budget : Nat) (s : State) :
    ∃ entry s' ds, declaration budget s = .ok entry s' ∧ s'.diagnostics = s.diagnostics ++ ds := by
  obtain ⟨entry, s', ts, ds, read, step, -⟩ := declaration_step budget s
  exact ⟨entry, s', ds, read, step.diagnostics⟩

theorem entries_extends (budget : Nat) (rounds : List Token) (s : State) :
    ∃ es s' ds, entries budget rounds s = .ok es s' ∧ s'.diagnostics = s.diagnostics ++ ds := by
  obtain ⟨es, s', ts, ds, read, step, -⟩ := entries_step budget rounds s
  exact ⟨es, s', ds, read, step.diagnostics⟩

/-- Where reading unwinds for its nesting, the diagnostics say so. -/
theorem exists_nestingTooDeep {budget : Nat} {s s' : State}
    (h : attempt budget s = .error .nestingTooDeep s') (ds : List Diagnostic) :
    ∃ d ∈ s'.diagnostics ++ ds, d.complaint = .nestingTooDeep := by
  have ends := attempt_ends budget s
  rw [h] at ends
  cases ends with
  | error _ _ step =>
    refine ⟨.atToken s'.cursor.peek .nestingTooDeep, ?_, rfl⟩
    rw [step.diagnostics]
    simp

/-- The statements of a program are read as their trees, or some nesting is reported. -/
theorem entries_of_program (budget : Nat) {ts : List Token} {stmts : List Stmt}
    (h : Program ts stmts) : ∀ (rounds : List Token) (s s' : State),
    Step s ts [] s' → s'.cursor.ahead = [] → ts.length ≤ rounds.length →
    entries budget rounds s = .ok (stmts.map some) s' ∨
      ∃ es s'', entries budget rounds s = .ok es s'' ∧
        ∃ d ∈ s''.diagnostics, d.complaint = .nestingTooDeep := by
  induction h with
  | nil =>
    intro rounds s s' step done _
    obtain rfl : s = s' := (Step.refl s).unique step
    exact .inl (entries_at_end budget rounds done)
  | @cons ts rest stmt stmts first _ ih =>
    intro rounds s s' step done enough
    have step' : Step s (ts ++ rest) ([] ++ []) s' := step
    obtain ⟨s₁, step₁, step₂⟩ := step'.split
    have more : s.cursor.ahead ≠ [] := by simp [step₁.ahead, first.ne_nil]
    have pos := List.length_pos_iff.mpr first.ne_nil
    rw [List.length_append] at enough
    cases rounds with
    | nil =>
      rw [List.length_nil] at enough
      omega
    | cons _ rounds =>
      rcases attempt_of_declares budget first step₁ with ha | ⟨s₂, ha⟩
      · have hd : declaration budget s = .ok (some stmt) s₁ := by rw [declaration_eq, ha]
        rw [List.length_cons] at enough
        rcases ih rounds s₁ s' step₂ done (by omega) with he | ⟨es, s₃, he, deep⟩
        · exact .inl (entries_of_declaration more hd he)
        · exact .inr ⟨_, s₃, entries_of_declaration more hd he, deep⟩
      · have hd : declaration budget s =
            .ok none { s₂ with cursor := s₂.cursor.synchronize } := by rw [declaration_eq, ha]
        obtain ⟨es, s₃, ds, he, diag⟩ :=
          entries_extends budget rounds { s₂ with cursor := s₂.cursor.synchronize }
        refine .inr ⟨_, s₃, entries_of_declaration more hd he, ?_⟩
        rw [diag]
        exact exists_nestingTooDeep ha ds

/-- Tokens that are a program are read as its trees, or some nesting is reported. -/
theorem parse_of_program {l : Lexed} {stmts : List Stmt} (budget : Nat)
    (h : Program l.tokens stmts) :
    l.parse budget = (stmts.map some, []) ∨
      ∃ d ∈ (l.parse budget).2, d.complaint = .nestingTooDeep := by
  have step : Step ⟨.start l.tokens l.last, []⟩ l.tokens []
      ⟨⟨l.tokens.reverse, [], l.last⟩, []⟩ :=
    ⟨(List.append_nil _).symm, (List.append_nil _).symm, rfl, rfl⟩
  have hp : program budget ⟨.start l.tokens l.last, []⟩ =
      entries budget l.tokens ⟨.start l.tokens l.last, []⟩ := rfl
  rw [Lexed.parse, hp]
  rcases entries_of_program budget h l.tokens _ _ step rfl (Nat.le_refl _) with
    he | ⟨es, s, he, deep⟩
  · rw [he]
    exact .inl rfl
  · rw [he]
    exact .inr deep

end Parser

/-! ## §4 Recognition -/

/-- **The parser recognises the grammar.** Where no nesting is reported as too deep, reading reports
nothing exactly when the tokens are a program. Every entry is then a statement, the statements are
the only trees that the grammar gives to the tokens, and written out they are the tokens again. -/
theorem parse_recognises (l : Lexed) (budget : Nat)
    (shallow : ∀ d ∈ (l.parse budget).2, d.complaint ≠ .nestingTooDeep) :
    ((l.parse budget).2 = [] ↔ ∃ stmts, Program l.tokens stmts) ∧
    ((l.parse budget).2 = [] → ∃ stmts, (l.parse budget).1 = stmts.map some ∧
      Program l.tokens stmts ∧ (∀ others, Program l.tokens others → others = stmts) ∧
      stmts.flatMap Stmt.residues = l.tokens.map Token.residue) := by
  have accepted : ∀ stmts, Program l.tokens stmts → l.parse budget = (stmts.map some, []) := by
    intro stmts program
    rcases Parser.parse_of_program budget program with h | ⟨d, hd, deep⟩
    · exact h
    · exact absurd deep (shallow d hd)
  refine ⟨⟨fun quiet => ?_, fun ⟨stmts, program⟩ => ?_⟩, fun quiet => ?_⟩
  · obtain ⟨stmts, -, program⟩ := Lexed.program_of_parse quiet
    exact ⟨stmts, program⟩
  · rw [accepted stmts program]
  · obtain ⟨stmts, he, program⟩ := Lexed.program_of_parse quiet
    refine ⟨stmts, he, program, fun others program' => ?_, program.map_residue.symm⟩
    have hs : others.map some = stmts.map some := by
      rw [← he, accepted others program']
    exact (List.map_inj_right (fun _ _ h => Option.some.inj h)).mp hs

/-- The tokens of `a = -b == 1 < (c);`. -/
def chainedTokens : Lexed where
  tokens :=
    [⟨.name, "a", none, 1, 0⟩, ⟨.equal, "=", none, 1, 2⟩, ⟨.minus, "-", none, 1, 4⟩,
     ⟨.name, "b", none, 1, 5⟩, ⟨.equalEqual, "==", none, 1, 7⟩,
     ⟨.number, "1", some (.number ⟨0x3ff0000000000000⟩), 1, 10⟩, ⟨.less, "<", none, 1, 12⟩,
     ⟨.leftParen, "(", none, 1, 14⟩, ⟨.name, "c", none, 1, 15⟩, ⟨.rightParen, ")", none, 1, 16⟩,
     ⟨.semicolon, ";", none, 1, 17⟩]
  last := .ending 1
  diagnostics := []

/-- The hypothesis holds of tokens with every form of operator, and they are a program. -/
theorem parse_recognises_chained :
    (chainedTokens.parse 20).2 = [] ∧
    ∃ stmts, (chainedTokens.parse 20).1 = stmts.map some ∧ Program chainedTokens.tokens stmts ∧
      (∀ others, Program chainedTokens.tokens others → others = stmts) ∧
      stmts.flatMap Stmt.residues = chainedTokens.tokens.map Token.residue := by
  have quiet : (chainedTokens.parse 20).2 = [] := by decide
  have shallow : ∀ d ∈ (chainedTokens.parse 20).2, d.complaint ≠ .nestingTooDeep := by
    rw [quiet]
    simp
  exact ⟨quiet, (parse_recognises chainedTokens 20 shallow).2 quiet⟩

end Scriptlet
