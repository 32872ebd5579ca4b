/-
Scriptlet.Proofs.Run.Relocation — running does not look at places either.

Relocated trees run as the trees they come from: they print the same and leave
the same scope, and what stops them is relocated. What a session shows on the
standard output has no places in it at all. A session is therefore led by the
tokens of a source apart from their places, and these do not depend on its
layout (`run_of_reformats`).

  §1 Evaluation.
  §2 Statements.
  §3 What is shown.
  §4 Sessions.
  §5 Layout.
-/
import Scriptlet.Session
import Scriptlet.Proofs.Token.Layout
import Scriptlet.Proofs.Tree.Relocation

namespace Scriptlet

open Token (Kind)

variable (r : Relocation)

/-! ## §1 Evaluation -/

/-- A runtime error at a relocated token. -/
def RuntimeError.relocate (e : RuntimeError) : RuntimeError :=
  { e with token := e.token.relocate r }

/-- A fault at a relocated token. -/
def Fault.relocate : Fault → Fault
  | .runtime e => .runtime (e.relocate r)
  | .notExpression what => .notExpression what
  | .notStatement what => .notStatement what

/-- An evaluation that fails at relocated tokens. -/
def Evaluation.relocate {α : Type} (m : Evaluation α) : Evaluation α := fun s =>
  match m s with
  | .ok a s' => .ok a s'
  | .error f s' => .error (f.relocate r) s'

namespace Token

variable (t : Token)

theorem applyUnary_relocate (v : Value) :
    (t.relocate r).applyUnary v = (t.applyUnary v).mapError (RuntimeError.relocate r) := by
  have kind : (t.relocate r).kind = t.kind := rfl
  unfold applyUnary
  rw [kind]
  split
  · rfl
  · cases v <;> rfl
  · rfl

theorem applyToNumbers_relocate (f : Double → Double → Value) (v w : Value) :
    (t.relocate r).applyToNumbers f v w =
      (t.applyToNumbers f v w).mapError (RuntimeError.relocate r) := by
  cases v <;> cases w <;> rfl

theorem applyPlus_relocate (v w : Value) :
    (t.relocate r).applyPlus v w = (t.applyPlus v w).mapError (RuntimeError.relocate r) := by
  cases v <;> cases w <;> rfl

theorem applyBinary_relocate (v w : Value) :
    (t.relocate r).applyBinary v w = (t.applyBinary v w).mapError (RuntimeError.relocate r) := by
  have kind : (t.relocate r).kind = t.kind := rfl
  unfold applyBinary
  rw [kind]
  split
  · exact applyPlus_relocate r t v w
  iterate 7 exact applyToNumbers_relocate r t _ v w
  · rfl
  · rfl
  · rfl

end Token

namespace Evaluation

variable {α β : Type}

theorem bind_relocate (m : Evaluation α) (k : α → Evaluation β) :
    (m >>= k).relocate r = m.relocate r >>= fun a => (k a).relocate r := by
  funext s
  show (match EStateM.bind m k s with
    | .ok b s' => _
    | .error f s' => _) = EStateM.bind (m.relocate r) (fun a => (k a).relocate r) s
  unfold EStateM.bind relocate
  cases m s <;> rfl

theorem ofExcept_relocate (e : Except RuntimeError Value) :
    (ofExcept e).relocate r = ofExcept (e.mapError (RuntimeError.relocate r)) := by
  cases e <;> rfl

theorem read_relocate (name : Token) : (read name).relocate r = read (name.relocate r) := by
  have lexeme : (name.relocate r).lexeme = name.lexeme := rfl
  unfold read
  rw [bind_relocate, lexeme]
  refine congrArg (get >>= ·) (funext fun s => ?_)
  cases OrderedMap.get? s name.lexeme <;> rfl

theorem write_relocate (name : Token) (v : Value) :
    (write name v).relocate r = write (name.relocate r) v := by
  have lexeme : (name.relocate r).lexeme = name.lexeme := rfl
  unfold write
  rw [bind_relocate, lexeme]
  refine congrArg (get >>= ·) (funext fun s => ?_)
  cases Scope.assign? s name.lexeme v <;> rfl

end Evaluation

/-- Relocated expressions have the same meaning, but that they fail at relocated tokens. -/
theorem Expr.meaning_relocate (e : Expr) : (e.relocate r).meaning = e.meaning.relocate r := by
  induction e with
  | literal v => rfl
  | group inner ih => exact ih
  | unary operator operand ih =>
    simp only [relocate, meaning, ih, Evaluation.bind_relocate, Evaluation.ofExcept_relocate,
      Token.applyUnary_relocate]
  | binary left operator right ihl ihr =>
    simp only [relocate, meaning, ihl, ihr, Evaluation.bind_relocate,
      Evaluation.ofExcept_relocate, Token.applyBinary_relocate]
  | var name => exact (Evaluation.read_relocate r name).symm
  | assign name value ih =>
    simp only [relocate, meaning, ih, Evaluation.bind_relocate, Evaluation.write_relocate]
  | misfit what => rfl

/-! ## §2 Statements -/

/-- What running relocated statements does. -/
def Effect.relocate (e : Effect) : Effect := { e with fault := e.fault.map (Fault.relocate r) }

theorem Effect.ofEvaluation_relocate (e : Expr) (s : Scope) {next : Value → Scope → Effect}
    (hnext : ∀ v s', (next v s').relocate r = next v s') :
    Effect.ofEvaluation (e.relocate r) s next = (Effect.ofEvaluation e s next).relocate r := by
  unfold Effect.ofEvaluation
  rw [Expr.evaluate_eq_meaning, Expr.evaluate_eq_meaning, Expr.meaning_relocate]
  unfold Evaluation.relocate
  cases e.meaning s with
  | ok v s' => exact (hnext v s').symm
  | error f s' => rfl

/-- Relocated entries run like the entries they come from. -/
theorem Entry.execute_relocate (entry : Entry) (s : Scope) :
    (entry.relocate r).execute s = (entry.execute s).relocate r := by
  match entry with
  | none => rfl
  | some (.expression e) => exact Effect.ofEvaluation_relocate r e s fun _ _ => rfl
  | some (.print e) => exact Effect.ofEvaluation_relocate r e s fun _ _ => rfl
  | some (.var name none) => rfl
  | some (.var name (some e)) => exact Effect.ofEvaluation_relocate r e s fun _ _ => rfl
  | some (.misfit what) => rfl

/-- Relocated programs run like the programs they come from, but that they stop at relocated
tokens. -/
theorem executeAll_relocate (entries : List Entry) (s : Scope) :
    executeAll (entries.map (Entry.relocate r)) s = (executeAll entries s).relocate r := by
  induction entries generalizing s with
  | nil => rfl
  | cons entry rest ih =>
    have first := Entry.execute_relocate r entry s
    cases stopped : (entry.execute s).fault with
    | some f =>
      have stopped' : ((entry.relocate r).execute s).fault = some (f.relocate r) := by
        rw [first, Effect.relocate, stopped]
        rfl
      rw [List.map_cons, executeAll_of_fault stopped, executeAll_of_fault stopped', first]
    | none =>
      have stopped' : ((entry.relocate r).execute s).fault = none := by
        rw [first, Effect.relocate, stopped]
        rfl
      rw [List.map_cons, executeAll_of_no_fault stopped, executeAll_of_no_fault stopped', first,
        ih]
      rfl

/-! ## §3 What is shown -/

theorem Expr.textOnto_relocate (e : Expr) (rest : Text) :
    (e.relocate r).textOnto rest = e.textOnto rest := by
  induction e generalizing rest with
  | literal v => rfl
  | group inner ih => simp only [relocate, textOnto, ih]
  | unary operator operand ih => simp only [relocate, textOnto, ih, Token.relocate]
  | binary left operator right ihl ihr => simp only [relocate, textOnto, ihl, ihr, Token.relocate]
  | var name => rfl
  | assign name value ih => simp only [relocate, textOnto, ih, Token.relocate]
  | misfit what => rfl

theorem Expr.text_relocate (e : Expr) : (e.relocate r).text = e.text := by
  rw [text_eq_textOnto, textOnto_relocate, ← text_eq_textOnto]

theorem Entry.text_relocate (entry : Entry) : (entry.relocate r).text = entry.text := by
  match entry with
  | none => rfl
  | some (.expression e) => exact congrArg (Text.parenthesized _ [·]) (e.text_relocate r)
  | some (.print e) => exact congrArg (Text.parenthesized _ [·]) (e.text_relocate r)
  | some (.var name none) => rfl
  | some (.var name (some e)) => exact congrArg (Text.parenthesized _ [_, ·]) (e.text_relocate r)
  | some (.misfit what) => rfl

namespace Transcript

/-- What a session shows for a source in another place. -/
def relocate (t : Transcript) : Transcript :=
  { tokens := t.tokens.map (Token.relocate r)
    trees := t.trees.map (List.map (Entry.relocate r))
    diagnostics := t.diagnostics.map (Diagnostic.relocate r)
    printed := t.printed
    fault := t.fault.map (Fault.relocate r) }

/-- There are no places on the standard output. -/
theorem stdout_relocate (t : Transcript) : (t.relocate r).stdout = t.stdout := by
  have listing : (t.relocate r).listing = t.listing := by
    show (t.tokens.map (Token.relocate r)).flatMap _ = _
    rw [List.flatMap_map]
    rfl
  have block : ∀ entries, treeBlock (entries.map (Entry.relocate r)) = treeBlock entries := by
    intro entries
    unfold treeBlock
    rw [List.flatMap_map]
    simp only [Entry.text_relocate]
  unfold stdout
  rw [listing]
  cases trees : t.trees with
  | none => simp [relocate, trees]
  | some entries => simp [relocate, trees, block]

end Transcript

/-! ## §4 Sessions -/

/-- A source read into a relocated program. -/
def Parsed.relocate (p : Parsed) : Parsed :=
  ⟨p.tokens.map (Token.relocate r), p.entries.map (Entry.relocate r),
    p.diagnostics.map (Diagnostic.relocate r)⟩

/-- A source is read by its relocated tokens into its relocated program. -/
theorem Text.parse_relocate (source : Text) :
    source.parse.relocate r = ⟨(source.lex.relocate r).all,
      ((source.lex.relocate r).parse Parser.nestingBudget).1,
      (source.lex.relocate r).diagnostics ++
        ((source.lex.relocate r).parse Parser.nestingBudget).2⟩ := by
  rw [Lexed.parse_relocate]
  simp [Parsed.relocate, Text.parse, Lexed.all, Lexed.relocate]

theorem Session.any_isRuntime_relocate (fault : Option Fault) :
    (fault.map (Fault.relocate r)).any isRuntime = fault.any isRuntime := by
  match fault with
  | none => rfl
  | some (.runtime e) => rfl
  | some (.notExpression what) => rfl
  | some (.notStatement what) => rfl

/-- Sources that are read alike, up to a relocation, are run alike. -/
theorem Session.run_of_relocate {source other : Text} {r : Relocation}
    (h : other.parse.relocate r = source.parse.relocate r) (s : Session) :
    (s.run other).1 = (s.run source).1 ∧
      (s.run other).2.relocate r = (s.run source).2.relocate r := by
  injection h with tokens entries diagnostics
  have wrong : other.parse.diagnostics.isEmpty = source.parse.diagnostics.isEmpty := by
    rw [← List.isEmpty_map, diagnostics, List.isEmpty_map]
  have trees : Option.map (List.map (Entry.relocate r))
      (if s.debug then some other.parse.entries else none) =
      Option.map (List.map (Entry.relocate r))
        (if s.debug then some source.parse.entries else none) := by
    cases s.debug with
    | true => exact congrArg some entries
    | false => rfl
  cases noted : s.hadError || !source.parse.diagnostics.isEmpty with
  | true =>
    rw [run_of_hadError noted, run_of_hadError (wrong ▸ noted)]
    refine ⟨rfl, ?_⟩
    simp only [Transcript.relocate, tokens, trees, diagnostics]
  | false =>
    rw [Bool.or_eq_false_iff, Bool.not_eq_false'] at noted
    obtain ⟨clear, quiet⟩ := noted
    have effect : (executeAll other.parse.entries s.scope).relocate r =
        (executeAll source.parse.entries s.scope).relocate r := by
      rw [← executeAll_relocate, entries, executeAll_relocate]
    injection effect with scope printed fault
    rw [run_of_quiet clear (List.isEmpty_iff.mp quiet),
      run_of_quiet clear (List.isEmpty_iff.mp (wrong.trans quiet))]
    have stopped := any_isRuntime_relocate r (executeAll other.parse.entries s.scope).fault
    rw [fault, any_isRuntime_relocate] at stopped
    constructor
    · simp only [scope, stopped]
    · simp only [Transcript.relocate, tokens, trees, printed, fault]

/-! ## §5 Layout -/

/-- Tokens that are the same apart from their places are the same in one place. -/
theorem Token.map_relocate_nowhere {ts us : List Token}
    (h : ts.map Token.word = us.map Token.word) :
    ts.map (Token.relocate .nowhere) = us.map (Token.relocate .nowhere) := by
  have placed : ∀ ts : List Token, ts.map (Token.relocate .nowhere) =
      (ts.map Token.word).map fun w => ⟨w.1, w.2.1, w.2.2, 0, 0⟩ := fun ts => by
    rw [List.map_map]
    rfl
  rw [placed, placed, h]

/-- **Layout does not matter.** If nothing is wrong with the symbols of a source, putting its
lexemes down anew, with other separators between them, gives a source with the same tokens but for
their places. In every session both leave the same state and show the same on the standard output,
and what they report is the same but for the lines. -/
theorem run_of_reformats {source other : Text} (quiet : source.lex.diagnostics = [])
    (h : Reformats (source.lex.tokens.map Token.lexeme) other) :
    other.lex.diagnostics = [] ∧
    other.lex.all.map Token.word = source.lex.all.map Token.word ∧
    ∀ s : Session, (s.run other).1 = (s.run source).1 ∧
      (s.run other).2.stdout = (s.run source).2.stdout ∧
      (s.run other).2.relocate .nowhere = (s.run source).2.relocate .nowhere ∧
      ((s.run other).2.relocate .nowhere).stderr =
        ((s.run source).2.relocate .nowhere).stderr := by
  have pieces := Text.significant_of_reformats quiet h
  obtain ⟨words, wrong⟩ := Text.lex_of_significant pieces
  have quiet' := wrong quiet
  have lexed : other.lex.relocate .nowhere = source.lex.relocate .nowhere := by
    have last : other.lex.last.relocate .nowhere = source.lex.last.relocate .nowhere := by
      rw [Text.last_lex, Text.last_lex]
      rfl
    rw [Lexed.relocate, Lexed.relocate, Token.map_relocate_nowhere words, last, quiet, quiet']
  have parsed : other.parse.relocate .nowhere = source.parse.relocate .nowhere := by
    rw [Text.parse_relocate, Text.parse_relocate, lexed]
  refine ⟨quiet', ?_, fun s => ?_⟩
  · rw [Lexed.all, Lexed.all, List.map_append, List.map_append, words, Text.last_lex,
      Text.last_lex]
    rfl
  · obtain ⟨session, transcript⟩ := Session.run_of_relocate parsed s
    refine ⟨session, ?_, transcript, congrArg Transcript.stderr transcript⟩
    rw [← Transcript.stdout_relocate .nowhere, transcript, Transcript.stdout_relocate]

/-- A source without any layout that is not needed. -/
def compactSource : Text := "print a/1.5>=\"b\";"

/-- The same source with layout of every kind. -/
def airySource : Text := "// all\nprint\ta\r/ // by\n1.5 >=\n\n\"b\" ;\n"

/-- The airy source is made of the lexemes of the compact one, and runs alike. -/
theorem run_of_reformats_airy :
    compactSource.lex.diagnostics = [] ∧
    Reformats (compactSource.lex.tokens.map Token.lexeme) airySource ∧
    ∀ s : Session, (s.run airySource).1 = (s.run compactSource).1 ∧
      (s.run airySource).2.stdout = (s.run compactSource).2.stdout := by
  have quiet : compactSource.lex.diagnostics = [] := by decide +kernel
  have lexemes : compactSource.lex.tokens.map Token.lexeme =
      ["print", "a", "/", "1.5", ">=", "\"b\"", ";"] := by decide +kernel
  have white : ∀ s : Symbol, s.isWhite = true → Separator [s] := fun s h => ⟨s, [], rfl, h, .nil⟩
  have spread : Spread (compactSource.lex.tokens.map Token.lexeme)
      "print\ta\r/ // by\n1.5 >=\n\n\"b\" ;\n" := by
    rw [lexemes]
    exact .cons (white (.char '\t') rfl) <| .cons (white (.char '\r') rfl) <|
      .cons ⟨.char ' ', _, rfl, rfl, @Filler.comment " by" [] (by decide) .nil⟩ <|
      .cons (white (.char ' ') rfl) <|
      .cons ⟨.char '\n', _, rfl, rfl, .white (s := .char '\n') rfl .nil⟩ <|
      .cons (white (.char ' ') rfl) <| .last (.inr (white (.char '\n') rfl))
  have reformats : Reformats (compactSource.lex.tokens.map Token.lexeme) airySource :=
    ⟨"// all\n", _, by decide, @Filler.comment " all" [] (by decide) .nil, spread⟩
  refine ⟨quiet, reformats, fun s => ?_⟩
  obtain ⟨session, stdout, -⟩ := (run_of_reformats quiet reformats).2.2 s
  exact ⟨session, stdout⟩

end Scriptlet
