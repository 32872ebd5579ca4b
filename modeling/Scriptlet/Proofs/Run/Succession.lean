/-
Scriptlet.Proofs.Run.Succession — sources run one after another, or all at once.

Sources about which nothing is reported can be put one below the other, with a
line feed between them. The whole is read as the statements of one source after
those of the other, each source with its lines counted from further down
(`parse_joined`). Running the whole comes to the same as running one source after
another in a session, up to the first that ends in a runtime error: there the
whole stops too (`run_joined`).

  §1 Relocations one after another.
  §2 Sources one below the other.
  §3 Statements one after another.
  §4 Sources one after another.
-/
import Mathlib.Algebra.GroupWithZero.Nat
import Scriptlet.Proofs.Run.Relocation
import Scriptlet.Proofs.Run.Safety
import Scriptlet.Proofs.Token.Seam
import Scriptlet.Proofs.Tree.Locality

namespace Scriptlet

/-! ## §1 Relocations one after another -/

namespace Relocation

variable (m n : Nat)

theorem token_down_down (t : Token) :
    (t.relocate (.down m)).relocate (.down n) = t.relocate (.down (m + n)) := by
  simp [Token.relocate, down, Int.add_assoc]

theorem token_down_zero (t : Token) : t.relocate (.down 0) = t := by
  simp [Token.relocate, down]

theorem expr_down_down (e : Expr) :
    (e.relocate (.down m)).relocate (.down n) = e.relocate (.down (m + n)) := by
  induction e with
  | literal | misfit => rfl
  | var name => simp [Expr.relocate, token_down_down]
  | group inner ih => simp [Expr.relocate, ih]
  | unary operator operand ih => simp [Expr.relocate, token_down_down, ih]
  | assign name value ih => simp [Expr.relocate, token_down_down, ih]
  | binary left operator right ihl ihr => simp [Expr.relocate, token_down_down, ihl, ihr]

theorem expr_down_zero (e : Expr) : e.relocate (.down 0) = e := by
  induction e with
  | literal | misfit => rfl
  | var name => simp [Expr.relocate, token_down_zero]
  | group inner ih => simp [Expr.relocate, ih]
  | unary operator operand ih => simp [Expr.relocate, token_down_zero, ih]
  | assign name value ih => simp [Expr.relocate, token_down_zero, ih]
  | binary left operator right ihl ihr => simp [Expr.relocate, token_down_zero, ihl, ihr]

theorem entry_down_down (entry : Entry) :
    (entry.relocate (.down m)).relocate (.down n) = entry.relocate (.down (m + n)) := by
  match entry with
  | none | some (.misfit what) | some (.var name none) =>
    simp [Entry.relocate, Stmt.relocate, token_down_down]
  | some (.expression e) | some (.print e) | some (.var name (some e)) =>
    simp [Entry.relocate, Stmt.relocate, token_down_down, expr_down_down]

theorem entry_down_zero (entry : Entry) : entry.relocate (.down 0) = entry := by
  match entry with
  | none | some (.misfit what) | some (.var name none) =>
    simp [Entry.relocate, Stmt.relocate, token_down_zero]
  | some (.expression e) | some (.print e) | some (.var name (some e)) =>
    simp [Entry.relocate, Stmt.relocate, token_down_zero, expr_down_zero]

end Relocation

/-! ## §2 Sources one below the other -/

namespace Text

/-- Sources one below the other, with a line feed between them. -/
def joined (sources : List Text) : Text := [Symbol.lineFeed].intercalate sources

/-- The lines that sources take one below the other. -/
def height (sources : List Text) : Nat := (sources.map fun source => source.lineFeeds + 1).sum

/-- The statements of sources one below the other, the first of them `n` lines down. -/
def statements (n : Nat) : List Text → List Entry
  | [] => []
  | source :: rest =>
    source.parse.entries.map (Entry.relocate (.down n)) ++
      statements (n + (source.lineFeeds + 1)) rest

theorem statements_append (n : Nat) (before after : List Text) :
    statements n (before ++ after) =
      statements n before ++ statements (n + height before) after := by
  induction before generalizing n with
  | nil => rfl
  | cons source before ih =>
    simp [statements, height, ih, Nat.add_assoc]

theorem map_statements (m n : Nat) (sources : List Text) :
    (statements m sources).map (Entry.relocate (.down n)) = statements (m + n) sources := by
  induction sources generalizing m with
  | nil => rfl
  | cons source rest ih =>
    have moved : Entry.relocate (.down n) ∘ Entry.relocate (.down m) =
        Entry.relocate (.down (m + n)) := funext (Relocation.entry_down_down m n)
    rw [statements, List.map_append, List.map_map, moved, ih, statements]
    congr 2
    omega

theorem quiet_iff {source : Text} : source.parse.diagnostics = [] ↔
    source.lex.diagnostics = [] ∧ (source.lex.parse Parser.nestingBudget).2 = [] :=
  List.append_eq_nil_iff

/-- Two sources joined by a line feed are read one after the other. -/
theorem parse_append_lineFeed {a b : Text} (quiet : a.parse.diagnostics = [])
    (quiet' : b.parse.diagnostics = []) :
    (a ++ Symbol.lineFeed :: b).parse.diagnostics = [] ∧
    (a ++ Symbol.lineFeed :: b).parse.entries = a.parse.entries ++
      b.parse.entries.map (Entry.relocate (.down (a.lineFeeds + 1))) := by
  obtain ⟨lexed, parsed⟩ := quiet_iff.mp quiet
  obtain ⟨lexed', parsed'⟩ := quiet_iff.mp quiet'
  have seam := lex_append_lineFeed a b (by simp [lexed])
  have moved := b.lex.parse_relocate (.down (a.lineFeeds + 1)) Parser.nestingBudget
  have tokens : (a ++ Symbol.lineFeed :: b).lex.tokens =
      a.lex.tokens ++ (b.lex.relocate (.down (a.lineFeeds + 1))).tokens := by rw [seam]
  have whole := Lexed.parse_append tokens parsed (by rw [moved, parsed']; rfl)
  constructor
  · rw [quiet_iff, whole, seam, lexed]
    exact ⟨by simp [Lexed.relocate, lexed'], rfl⟩
  · show (Lexed.parse _ _).1 = _
    rw [whole, moved]
    rfl

/-- Sources one below the other are read one by one. -/
theorem parse_joined (sources : List Text)
    (quiet : ∀ source ∈ sources, source.parse.diagnostics = []) :
    (joined sources).parse.diagnostics = [] ∧
      (joined sources).parse.entries = statements 0 sources := by
  have unmoved : Entry.relocate (.down 0) = id := funext Relocation.entry_down_zero
  induction sources with
  | nil => decide +kernel
  | cons source rest ih =>
    have here := quiet source List.mem_cons_self
    cases rest with
    | nil =>
      have alone : joined [source] = source := by simp [joined]
      simp [alone, here, statements, unmoved]
    | cons next rest =>
      obtain ⟨below, entries⟩ := ih fun other mem => quiet other (List.mem_cons_of_mem _ mem)
      have above : joined (source :: next :: rest) =
          source ++ Symbol.lineFeed :: joined (next :: rest) := by
        simp [joined, List.intercalate]
      obtain ⟨silent, both⟩ := parse_append_lineFeed here below
      have first : statements 0 (source :: next :: rest) = source.parse.entries ++
          statements (0 + (source.lineFeeds + 1)) (next :: rest) := by
        rw [statements, unmoved, List.map_id]
      rw [above, first, both, entries, map_statements]
      exact ⟨silent, rfl⟩

end Text

/-! ## §3 Statements one after another -/

/-- Goes on in the scope that is left, unless something stopped the run. -/
def Effect.andThen (first : Effect) (next : Scope → Effect) : Effect :=
  match first.fault with
  | some _ => first
  | none =>
    ⟨(next first.scope).scope, first.printed ++ (next first.scope).printed,
      (next first.scope).fault⟩

theorem executeAll_append (entries others : List Entry) (s : Scope) :
    executeAll (entries ++ others) s = (executeAll entries s).andThen (executeAll others) := by
  induction entries generalizing s with
  | nil => simp [executeAll, Effect.andThen]
  | cons entry rest ih =>
    cases stopped : (entry.execute s).fault with
    | some f => simp [List.cons_append, executeAll_of_fault stopped, Effect.andThen, stopped]
    | none =>
      rw [List.cons_append, executeAll_of_no_fault stopped, executeAll_of_no_fault stopped, ih]
      cases others : (executeAll rest (entry.execute s).scope).fault <;>
        simp [Effect.andThen, others]

/-! ## §4 Sources one after another -/

namespace Session

/-- Runs sources one after another. -/
def runAll (s : Session) : List Text → Session × List Transcript
  | [] => (s, [])
  | source :: rest =>
    (((s.run source).1.runAll rest).1, (s.run source).2 :: ((s.run source).1.runAll rest).2)

theorem runAll_append (s : Session) (before after : List Text) :
    s.runAll (before ++ after) = (((s.runAll before).1.runAll after).1,
      (s.runAll before).2 ++ ((s.runAll before).1.runAll after).2) := by
  induction before generalizing s with
  | nil => rfl
  | cons source before ih => simp [runAll, ih]

/-- A runtime error is noted for good. -/
theorem hadRuntimeError_runAll {s : Session} (h : s.hadRuntimeError = true)
    (sources : List Text) : (s.runAll sources).1.hadRuntimeError = true := by
  induction sources generalizing s with
  | nil => exact h
  | cons source rest ih => exact ih (by rw [hadRuntimeError_run, h, Bool.true_or])

theorem not_hadRuntimeError_of_runAll {s : Session} (sources : List Text)
    (h : (s.runAll sources).1.hadRuntimeError = false) : s.hadRuntimeError = false := by
  rw [Bool.eq_false_iff] at h ⊢
  exact fun had => h (hadRuntimeError_runAll had sources)

/-- A source about which nothing is reported stops with a runtime error, if it stops. -/
theorem exists_runtime_of_fault {source : Text} (quiet : source.parse.diagnostics = [])
    {scope : Scope} {f : Fault} (h : (executeAll source.parse.entries scope).fault = some f) :
    ∃ e, f = .runtime e := by
  obtain ⟨stmts, entries, wellFormed⟩ := Text.wellFormed_of_parse quiet
  rw [entries] at h
  obtain ⟨e, rfl, -⟩ := foreseen_executeAll stmts wellFormed scope f h
  exact ⟨e, rfl⟩

/-- As long as no runtime error is noted, running sources one after another comes to the same as
running their statements. -/
theorem runAll_eq_executeAll {sources : List Text}
    (quiet : ∀ source ∈ sources, source.parse.diagnostics = []) (n : Nat) :
    ∀ {s : Session}, s.hadError = false → (s.runAll sources).1.hadRuntimeError = false →
      (s.runAll sources).1 = { s with scope := (s.runAll sources).1.scope } ∧
      executeAll (Text.statements n sources) s.scope =
        ⟨(s.runAll sources).1.scope, (s.runAll sources).2.flatMap Transcript.printed, none⟩ := by
  induction sources generalizing n with
  | nil => exact fun _ _ => ⟨rfl, rfl⟩
  | cons source rest ih =>
    intro s clear fine
    have here := quiet source List.mem_cons_self
    have ran := run_of_quiet clear here
    have fineHere : (s.run source).1.hadRuntimeError = false :=
      not_hadRuntimeError_of_runAll rest fine
    rw [ran, Bool.or_eq_false_iff] at fineHere
    have finished : (executeAll source.parse.entries s.scope).fault = none := by
      cases stopped : (executeAll source.parse.entries s.scope).fault with
      | none => rfl
      | some f =>
        obtain ⟨e, rfl⟩ := exists_runtime_of_fault here stopped
        rw [stopped] at fineHere
        exact absurd fineHere.2 (by simp [isRuntime])
    obtain ⟨same, others⟩ := ih (fun other mem => quiet other (List.mem_cons_of_mem _ mem))
      (n + (source.lineFeeds + 1)) (s := (s.run source).1) (by rw [ran]; exact clear) fine
    have scope : (s.run source).1.scope = (executeAll source.parse.entries s.scope).scope := by
      rw [ran]
    have printed : (s.run source).2.printed =
        (executeAll source.parse.entries s.scope).printed := by rw [ran]
    have kept : { (s.run source).1 with scope := ((s.run source).1.runAll rest).1.scope } =
        { s with scope := ((s.run source).1.runAll rest).1.scope } := by
      rw [ran, finished]
      simp
    refine ⟨same.trans kept, ?_⟩
    rw [scope] at others
    rw [Text.statements, executeAll_append, executeAll_relocate]
    simp only [Effect.andThen, Effect.relocate, finished, Option.map_none, others, runAll,
      List.flatMap_cons, printed]

section Failure

variable {s : Session} {before : List Text} {source : Text}

/-- The source with which a runtime error is first noted stops with one. -/
theorem exists_fault_of_failed (clear : (s.runAll before).1.hadError = false)
    (quiet : source.parse.diagnostics = [])
    (fine : (s.runAll before).1.hadRuntimeError = false)
    (failed : (s.runAll (before ++ [source])).1.hadRuntimeError = true) :
    ∃ e, (executeAll source.parse.entries (s.runAll before).1.scope).fault =
      some (.runtime e) := by
  rw [runAll_append] at failed
  simp only [runAll, run_of_quiet clear quiet, fine, Bool.false_or] at failed
  cases stopped : (executeAll source.parse.entries (s.runAll before).1.scope).fault with
  | none => rw [stopped] at failed; cases failed
  | some f =>
    obtain ⟨e, rfl⟩ := exists_runtime_of_fault quiet stopped
    exact ⟨e, rfl⟩

/-- The statements of all sources stop where the first source does that fails. -/
theorem executeAll_of_failed (clear : s.hadError = false)
    (quiet : ∀ other ∈ before, other.parse.diagnostics = [])
    (fine : (s.runAll before).1.hadRuntimeError = false) {e : RuntimeError}
    (stopped : (executeAll source.parse.entries (s.runAll before).1.scope).fault =
      some (.runtime e)) (after : List Text) :
    executeAll (Text.statements 0 (before ++ source :: after)) s.scope =
      ⟨(executeAll source.parse.entries (s.runAll before).1.scope).scope,
        (s.runAll before).2.flatMap Transcript.printed ++
          (executeAll source.parse.entries (s.runAll before).1.scope).printed,
        some (.runtime (e.relocate (.down (Text.height before))))⟩ := by
  obtain ⟨-, effect⟩ := runAll_eq_executeAll quiet 0 clear fine
  rw [Text.statements_append, executeAll_append, effect, Text.statements, Nat.zero_add]
  simp [executeAll_append, executeAll_relocate, Effect.andThen, Effect.relocate, stopped,
    Fault.relocate]

end Failure

/-- **A script runs as its lines do.** Sources about which nothing is reported alone can be put one
below the other: nothing is reported about the whole, and its statements are theirs, further down.
If no runtime error is noted when they are run one after another, running the whole leaves the same
session and prints the same. If one of them is the first that ends in a runtime error, running the
whole leaves the session and prints what is left and printed behind that source, whatever stands
below it, and it reports the same error further down. -/
theorem run_joined (s : Session) (clear : s.hadError = false) (sources : List Text)
    (quiet : ∀ source ∈ sources, source.parse.diagnostics = []) :
    (Text.joined sources).parse.diagnostics = [] ∧
    (Text.joined sources).parse.entries = Text.statements 0 sources ∧
    ((s.runAll sources).1.hadRuntimeError = false →
      (s.run (Text.joined sources)).1 = (s.runAll sources).1 ∧
      (s.run (Text.joined sources)).2.printed =
        (s.runAll sources).2.flatMap Transcript.printed ∧
      (s.run (Text.joined sources)).2.fault = none) ∧
    ∀ before source after, sources = before ++ source :: after →
      (s.runAll before).1.hadRuntimeError = false →
      (s.runAll (before ++ [source])).1.hadRuntimeError = true →
      (s.run (Text.joined sources)).1 = (s.runAll (before ++ [source])).1 ∧
      (s.run (Text.joined sources)).2.printed =
        (s.runAll (before ++ [source])).2.flatMap Transcript.printed ∧
      ∃ e, ((s.runAll before).1.run source).2.fault = some (.runtime e) ∧
        (s.run (Text.joined sources)).2.fault =
          some (.runtime (e.relocate (.down (Text.height before)))) ∧
        (s.run (Text.joined sources)).2.stderr = Text.line e.message ++
          Text.line (Text.ofString "[line " ++ Text.ofInt (e.line + Text.height before) ++
            Text.ofString "]") := by
  obtain ⟨silent, entries⟩ := Text.parse_joined sources quiet
  have ran := run_of_quiet clear silent
  rw [entries] at ran
  refine ⟨silent, entries, fun fine => ?_, fun before source after split fine failed => ?_⟩
  · obtain ⟨same, effect⟩ := runAll_eq_executeAll quiet 0 clear fine
    rw [ran, effect]
    refine ⟨?_, rfl, rfl⟩
    rw [same]
    simp
  · subst split
    have quietBefore : ∀ other ∈ before, other.parse.diagnostics = [] := fun other mem =>
      quiet other (List.mem_append_left _ mem)
    have here : source.parse.diagnostics = [] := quiet source (by simp)
    obtain ⟨same, -⟩ := runAll_eq_executeAll quietBefore 0 clear fine
    have clearHere : (s.runAll before).1.hadError = false := by rw [same]; exact clear
    obtain ⟨e, stopped⟩ := exists_fault_of_failed clearHere here fine failed
    have upTo := runAll_append s before [source]
    simp only [runAll] at upTo
    rw [ran, executeAll_of_failed clear quietBefore fine stopped, upTo, run_of_quiet clearHere here]
    refine ⟨?_, ?_, e, stopped, rfl, ?_⟩
    · rw [same]
      simp [stopped, isRuntime]
    · simp
    · exact List.nil_append _

/-- Sources of which the third ends in a runtime error. -/
def interruptedSources : List Text :=
  ["var a = \"x\ny\";", "print a; // said", "a = a + a;\nprint -a;\nprint a;", "print a;"]

/-- Nothing is reported about the sources alone. Run one below the other they stop where the third
one does, and say so three lines further down. -/
theorem run_joined_interrupted :
    (start false).hadError = false ∧
    (∀ source ∈ interruptedSources, source.parse.diagnostics = []) ∧
    ((start false).runAll (interruptedSources.take 2)).1.hadRuntimeError = false ∧
    ((start false).runAll (interruptedSources.take 3)).1.hadRuntimeError = true ∧
    ((start false).run (Text.joined interruptedSources)).1 =
      ((start false).runAll (interruptedSources.take 3)).1 ∧
    ((start false).run (Text.joined interruptedSources)).2.printed = Text.ofString "x\ny\n" ∧
    ((start false).run (Text.joined interruptedSources)).2.stderr =
      Text.ofString "Operand must be a number.\n[line 5]\n" := by
  have quiet : ∀ source ∈ interruptedSources, source.parse.diagnostics = [] := by decide +kernel
  have fine : ((start false).runAll (interruptedSources.take 2)).1.hadRuntimeError = false := by
    decide +kernel
  have failed : ((start false).runAll (interruptedSources.take 3)).1.hadRuntimeError = true := by
    decide +kernel
  have printed : ((start false).runAll (interruptedSources.take 3)).2.flatMap
      Transcript.printed = Text.ofString "x\ny\n" := by decide +kernel
  have stops := (run_joined (start false) rfl interruptedSources quiet).2.2.2
    (interruptedSources.take 2) (interruptedSources.getD 2 []) (interruptedSources.drop 3) rfl
    fine failed
  obtain ⟨session, text, e, fault, -, report⟩ := stops
  have line : e = ⟨.operandNotNumber, ⟨.minus, Text.ofString "-", none, 2, 6⟩⟩ := by
    have known : (((start false).runAll (interruptedSources.take 2)).1.run
        (interruptedSources.getD 2 [])).2.fault =
        some (.runtime ⟨.operandNotNumber, ⟨.minus, Text.ofString "-", none, 2, 6⟩⟩) := by
      decide +kernel
    rw [fault] at known
    injection known with known
    injection known
  rw [line] at report
  exact ⟨rfl, quiet, fine, failed, session, text.trans printed, report.trans (by decide +kernel)⟩

end Session

end Scriptlet
