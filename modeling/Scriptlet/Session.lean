/-
Scriptlet.Session — one source after another.

A session lists the tokens of each source, shows its trees if asked to, and runs
it unless something was wrong with it. The variables live as long as the session.
An error in a source stays noted, and while it is nothing is run; the prompt
clears it after every line. A runtime error is noted for good.

The stack that an evaluation takes has no bound here. With a bounded one there is
one more way for a run to fail: a program that the parser accepts may be nested
too deeply to be evaluated, and is then stopped, reported without a line and noted
like a runtime error. That route is left out.

  §1 Transcripts.
  §2 Sessions.
-/
import Scriptlet.Run.Execution
import Scriptlet.Tree.Printer
import Scriptlet.Tree.Parser

namespace Scriptlet

/-! ## §1 Transcripts -/

/-- What a session shows for one source. -/
structure Transcript where
  /-- The tokens that are listed. -/
  tokens : List Token
  /-- The program, if its trees are to be shown. -/
  trees : Option (List Entry)
  /-- What was wrong with the source. -/
  diagnostics : List Diagnostic
  /-- What the program printed. -/
  printed : Text
  /-- What stopped the program, if anything did. -/
  fault : Option Fault
deriving DecidableEq, Repr, Inhabited

namespace Transcript

/-- The list of tokens, one on a line. -/
def listing (t : Transcript) : Text := t.tokens.flatMap fun token => Text.line token.listing

/-- The trees of a program under a heading, one on a line. -/
def treeBlock (entries : List Entry) : Text :=
  Text.ofString "\nAST:\n\n" ++ entries.flatMap (fun e => Text.line e.text) ++
    Text.ofString " \n"

/-- What goes to the standard output. -/
def stdout (t : Transcript) : Text :=
  t.listing ++ t.trees.elim [] treeBlock ++ t.printed

/-- The report of a runtime error. Other faults have none. -/
def faultReport : Fault → Text
  | .runtime e => e.report
  | _ => []

/-- What goes to the standard error. -/
def stderr (t : Transcript) : Text :=
  t.diagnostics.flatMap (fun d => Text.line d.text) ++ t.fault.elim [] faultReport

end Transcript

/-! ## §2 Sessions -/

/-- The state of a session. -/
structure Session where
  /-- Are the trees of each source shown? -/
  debug : Bool
  /-- Was something wrong with a source? -/
  hadError : Bool
  /-- Did a program end in a runtime error? -/
  hadRuntimeError : Bool
  /-- The variables. -/
  scope : Scope
deriving DecidableEq, Repr, Inhabited

namespace Session

/-- A new session. -/
def start (debug : Bool) : Session := ⟨debug, false, false, .empty⟩

/-- Forgets that something was wrong with a source. -/
def clearError (s : Session) : Session := { s with hadError := false }

/-- Takes note of a diagnostic. -/
def note (s : Session) (_ : Diagnostic) : Session := { s with hadError := true }

/-- Is a fault an error of the program? -/
def isRuntime : Fault → Bool
  | .runtime _ => true
  | _ => false

/-- Runs a source. -/
def run (s : Session) (source : Text) : Session × Transcript :=
  let parsed := source.parse
  let trees := if s.debug then some parsed.entries else none
  let noted := parsed.diagnostics.foldl note s
  if noted.hadError then
    (noted, ⟨parsed.tokens, trees, parsed.diagnostics, [], none⟩)
  else
    let effect := executeAll parsed.entries s.scope
    ({ noted with
        scope := effect.scope
        hadRuntimeError := s.hadRuntimeError || effect.fault.any isRuntime },
      ⟨parsed.tokens, trees, parsed.diagnostics, effect.printed, effect.fault⟩)

/-! ### What a run does -/

/-- Something is wrong with a source or was with one before it, or neither is so. -/
theorem refused_or_quiet (s : Session) (source : Text) :
    (s.hadError || !source.parse.diagnostics.isEmpty) = true ∨
      s.hadError = false ∧ source.parse.diagnostics = [] := by
  cases s.hadError <;> cases source.parse.diagnostics <;> simp

/-- Diagnostics are noted, and nothing else of a session changes. -/
theorem foldl_note (ds : List Diagnostic) (s : Session) :
    ds.foldl note s = { s with hadError := s.hadError || !ds.isEmpty } := by
  induction ds generalizing s with
  | nil => simp
  | cons d ds ih =>
    rw [List.foldl_cons, ih]
    simp [note]

/-- A source is not run if something is wrong with it, or was with one before it. -/
theorem run_of_hadError {s : Session} {source : Text}
    (h : (s.hadError || !source.parse.diagnostics.isEmpty) = true) :
    s.run source = ({ s with hadError := true },
      ⟨source.parse.tokens, if s.debug then some source.parse.entries else none,
        source.parse.diagnostics, [], none⟩) := by
  have noted := foldl_note source.parse.diagnostics s
  rw [h] at noted
  unfold run
  simp only [noted, if_true]

/-- Any other source is run. -/
theorem run_of_quiet {s : Session} {source : Text} (clear : s.hadError = false)
    (quiet : source.parse.diagnostics = []) :
    s.run source = ({ s with
        scope := (executeAll source.parse.entries s.scope).scope
        hadRuntimeError := s.hadRuntimeError ||
          (executeAll source.parse.entries s.scope).fault.any isRuntime },
      ⟨source.parse.tokens, if s.debug then some source.parse.entries else none, [],
        (executeAll source.parse.entries s.scope).printed,
        (executeAll source.parse.entries s.scope).fault⟩) := by
  unfold run
  simp only [quiet, List.foldl_nil, clear, Bool.false_eq_true, if_false]

/-- A session notes the runtime error of a source and forgets none. -/
theorem hadRuntimeError_run (s : Session) (source : Text) :
    (s.run source).1.hadRuntimeError =
      (s.hadRuntimeError || (s.run source).2.fault.any isRuntime) := by
  rcases s.refused_or_quiet source with noted | ⟨clear, quiet⟩
  · simp [run_of_hadError noted]
  · rw [run_of_quiet clear quiet]

/-- A program that prints a literal lists its tokens, shows its tree if asked to and prints the text
of the literal. The session stays as it is. -/
theorem run_print {s : Session} {source : Text} {tokens : List Token} {v : Value}
    (clear : s.hadError = false)
    (parsed : source.parse = ⟨tokens, [some (.print (.literal v))], []⟩) :
    (s.run source).1 = s ∧ (s.run source).2.stderr = [] ∧
    (s.run source).2.printed = Text.line v.text ∧
    (s.run source).2.stdout =
      tokens.flatMap (fun t => Text.line t.listing) ++
      (if s.debug then
        Text.ofString "\nAST:\n\n(print " ++ v.quoted ++ Text.ofString ")\n \n" else []) ++
      Text.line v.text := by
  have effect : executeAll [some (.print (.literal v))] s.scope =
      ⟨s.scope, Text.line v.text ++ [], none⟩ := rfl
  have block : Transcript.treeBlock [some (.print (.literal v))] =
      Text.ofString "\nAST:\n\n(print " ++ v.quoted ++ Text.ofString ")\n \n" := by
    simp [Transcript.treeBlock, Text.line, Entry.text, Stmt.text, Text.parenthesized, Expr.text,
      Expr.textWith]
    rfl
  rw [run_of_quiet clear (congrArg Parsed.diagnostics parsed), parsed, effect, List.append_nil]
  refine ⟨by simp, rfl, rfl, ?_⟩
  simp only [Transcript.stdout, Transcript.listing]
  cases s.debug with
  | false => rfl
  | true => rw [← block]; rfl

end Session

end Scriptlet
