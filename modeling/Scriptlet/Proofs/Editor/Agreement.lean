/-
Scriptlet.Proofs.Editor.Agreement — the editor and a run tell the same story.

An editor lists the declarations of a document without running it. If nothing is
wrong with the document, a run declares the same names in the same order, and a
run that fails has declared the first of them (`run_declares_outline`). If
something is wrong, the problems that the editor shows are what the command line
reports (`command_reports_problems`). The command line reads a script with unified
line ends and an editor does not; that makes no difference as long as carriage
returns do nothing but end lines.

  §1 Names.
  §2 Problems.
-/
import Scriptlet.Proofs.Command.Prompt
import Scriptlet.Proofs.Run.Naming
import Scriptlet.Proofs.Run.Succession
import Scriptlet.Proofs.Text.Reading
import Scriptlet.Proofs.Token.LineEnd
import Scriptlet.Editor.Analysis

namespace Scriptlet.Editor

/-! ## §1 Names -/

/-- The names among declarations, in the order of their first declaration. -/
def namesOf (ds : List Declaration) : List Text := (ds.map (·.name)).eraseDups

/-- An entry that an editor lists is listed by the name that it declares. -/
theorem Declaration.map_name_ofEntry? (uri : Text) (entry : Entry) :
    (Declaration.ofEntry? uri entry).map (·.name) = entry.declared? := by
  rcases entry with _ | (_ | _ | _ | _) <;> rfl

theorem namesOf_filterMap (uri : Text) (entries : List Entry) :
    namesOf (entries.filterMap (Declaration.ofEntry? uri)) =
      (entries.filterMap Entry.declared?).eraseDups := by
  rw [namesOf, List.map_filterMap]
  simp only [Declaration.map_name_ofEntry?]

theorem namesOf_prefix (ds others : List Declaration) :
    namesOf ds <+: namesOf (ds ++ others) := by
  rw [namesOf, namesOf, List.map_append, List.eraseDups_append]
  exact List.prefix_append _ _

/-- **A run declares what an editor lists.** If nothing is reported about a text, running it in a
new session leaves the names that an editor lists for it, in the order of their first declaration.
If a runtime error stops the run, the names are those listed for the statements before the one at
which it stops, and these are the first of all that are listed. -/
theorem run_declares_outline (uri text : Text) (debug : Bool)
    (quiet : text.parse.diagnostics = []) :
    let ran := (Session.start debug).run text
    let listed := namesOf (analyze uri text).declarations
    (ran.1.hadRuntimeError = false → ran.1.scope.names = listed) ∧
    (ran.1.hadRuntimeError = true → ran.1.scope.names <+: listed ∧
      ∃ before stopped after, text.parse.entries = before ++ stopped :: after ∧
        (executeAll before .empty).fault = none ∧
        (stopped.execute (executeAll before .empty).scope).fault = ran.2.fault ∧
        ran.1.scope.names = namesOf (before.filterMap (Declaration.ofEntry? uri))) := by
  intro ran listed
  have quietly : ran = _ := Session.run_of_quiet (s := .start debug) rfl quiet
  have scope : ran.1.scope = (executeAll text.parse.entries .empty).scope := by rw [quietly]; rfl
  have fault : ran.2.fault = (executeAll text.parse.entries .empty).fault := by rw [quietly]; rfl
  have noted : ran.1.hadRuntimeError = ran.2.fault.any Session.isRuntime :=
    (Session.start debug).hadRuntimeError_run text
  have unnamed : Scope.names .empty = ([] : List Text).eraseDups := rfl
  rw [noted, fault, scope]
  cases ended : (executeAll text.parse.entries .empty).fault with
  | none =>
    refine ⟨fun _ => ?_, nofun⟩
    rw [names_executeAll unnamed ended]
    exact (namesOf_filterMap uri text.parse.entries).symm
  | some f =>
    obtain ⟨e, rfl⟩ := Session.exists_runtime_of_fault quiet ended
    refine ⟨nofun, fun _ => ?_⟩
    obtain ⟨before, stopped, after, split, fine, failed, names⟩ :=
      names_executeAll_stops unnamed ended
    rw [List.nil_append, ← namesOf_filterMap uri] at names
    refine ⟨?_, before, stopped, after, split, fine, failed, names⟩
    rw [names]
    show _ <+: namesOf (text.parse.entries.filterMap (Declaration.ofEntry? uri))
    rw [split, List.filterMap_append]
    exact namesOf_prefix _ _

/-- A document that declares a name again, assigns inside an initial value, and fails in its last
but one declaration. -/
def failingDocument : Text := "var a = 1; var b = a = 2; var a; var c = -\"x\"; var d;"

/-- The names that a run of it leaves are the first two of those listed. -/
theorem run_declares_outline_failing :
    failingDocument.parse.diagnostics = [] ∧
    ((Session.start false).run failingDocument).1.hadRuntimeError = true ∧
    namesOf (analyze "file:///ws/a.nice" failingDocument).declarations =
      (["a", "b", "c", "d"] : List Text) ∧
    ((Session.start false).run failingDocument).1.scope.names = (["a", "b"] : List Text) ∧
    ((Session.start false).run failingDocument).1.scope.names <+:
      namesOf (analyze "file:///ws/a.nice" failingDocument).declarations := by
  have quiet : failingDocument.parse.diagnostics = [] := by decide +kernel
  have failed : ((Session.start false).run failingDocument).1.hadRuntimeError = true := by
    decide +kernel
  obtain ⟨-, stopped⟩ := run_declares_outline "file:///ws/a.nice" failingDocument false quiet
  exact ⟨quiet, failed, by decide +kernel, by decide +kernel, (stopped failed).1⟩

/-! ## §2 Problems -/

/-- What the problems of a document say, one on a line. -/
def Analysis.report (a : Analysis) : Text := a.problems.flatMap fun p => Text.line p.message

theorem report_analyze (uri text : Text) :
    (analyze uri text).report = text.parse.diagnostics.flatMap fun d => Text.line d.text :=
  List.flatMap_map ..

/-- The line of a problem is the one that its message tells, counted from zero. -/
theorem problem_of_mem_analyze {uri text : Text} {p : Problem}
    (h : p ∈ (analyze uri text).problems) :
    ∃ line place message, p.message = Diagnostic.frame line place message ∧
      p.range = ⟨line - 1, 0, line, 0⟩ ∧ text.HasLine line := by
  obtain ⟨d, reported, rfl⟩ := List.mem_map.mp h
  have line := Text.hasLine_of_mem_parse reported
  refine ⟨d.line, d.place.text, d.complaint.message, rfl, ?_, line⟩
  have unclamped : max (d.line - 1) 0 = d.line - 1 := by
    unfold Text.HasLine at line
    omega
  rw [Problem.ofDiagnostic, unclamped]
  simp

/-- A script is read with unified line ends. -/
theorem scriptText_bytes {text : Text} (decoded : text.isDecoded = true) :
    Command.scriptText text.bytes = text.unifyNewlines := by
  have read := Text.ofBytes_bytes_append decoded []
  rw [List.append_nil, Text.ofBytes, List.append_nil] at read
  rw [Command.scriptText, read]

/-- A new session reports what an editor shows, and behind that the error of the program, which is
run only if an editor shows nothing. -/
theorem stderr_run_start (debug : Bool) (uri text : Text) :
    ∃ fault, ((Session.start debug).run text).2.stderr = (analyze uri text).report ++ fault ∧
      (fault = [] ∨ (analyze uri text).problems = [] ∧ ∃ e : RuntimeError, fault = e.report) := by
  cases found : text.parse.diagnostics with
  | cons d ds =>
    have wrong : text.parse.diagnostics ≠ [] := by rw [found]; exact List.cons_ne_nil d ds
    refine ⟨[], ?_, .inl rfl⟩
    rw [(Command.run_of_refused (.inr wrong)).2.2, report_analyze, List.append_nil]
  | nil =>
    have problems : (analyze uri text).problems = [] := congrArg (List.map _) found
    rw [Session.run_of_quiet rfl found, report_analyze, found]
    cases ended : (executeAll text.parse.entries .empty).fault with
    | none => exact ⟨[], by simp [Transcript.stderr, Session.start, ended], .inl rfl⟩
    | some f =>
      obtain ⟨e, rfl⟩ := Session.exists_runtime_of_fault found ended
      refine ⟨e.report, ?_, .inr ⟨problems, e, rfl⟩⟩
      simp [Transcript.stderr, Transcript.faultReport, Session.start, ended]

/-- Where carriage returns only end lines, it is the same whether line ends are unified. -/
theorem analyze_unifyNewlines {text : Text} (plain : text.ReturnsEndLines) (uri : Text) :
    analyze uri text.unifyNewlines = analyze uri text := by
  have parsed : text.unifyNewlines.parse = text.parse := by
    unfold Text.parse
    rw [Text.lex_unifyNewlines plain]
  rw [analyze, analyze, parsed]

/-- **The command line reports what an editor shows.** A script that holds the bytes of a text is
run with unified line ends. What is reported are the problems that an editor would show for it then,
in order, and if there are none perhaps the error in which the program ended. If carriage returns
only end lines, and so in particular if there are none, these are the problems of the text itself.
Whatever the text, each of its problems is shown in the line that its message tells, counted from
zero, and that is a line of the text. -/
theorem command_reports_problems (r : Command.Request) (uri text path : Text)
    (decoded : text.isDecoded = true) (args : r.args = [path])
    (named : FileTree.holdsNul path = false) (read : r.files.read path = .ok text.bytes) :
    (∃ outcome fault, Command.run r = .ok outcome ∧
      outcome.stderr = (analyze uri text.unifyNewlines).report ++ fault ∧
      (fault = [] ∨ (analyze uri text.unifyNewlines).problems = [] ∧
        ∃ e : RuntimeError, fault = e.report)) ∧
    (text.ReturnsEndLines → analyze uri text.unifyNewlines = analyze uri text) ∧
    (Symbol.char '\r' ∉ text → text.ReturnsEndLines) ∧
    ∀ p ∈ (analyze uri text).problems, ∃ line place message,
      p.message = Diagnostic.frame line place message ∧ p.range = ⟨line - 1, 0, line, 0⟩ ∧
      text.HasLine line := by
  refine ⟨?_, fun plain => analyze_unifyNewlines plain uri, Text.returnsEndLines_of_not_mem,
    fun p mem => problem_of_mem_analyze mem⟩
  obtain ⟨fault, written, only⟩ :=
    stderr_run_start (Command.asksForTrees r.debug) uri text.unifyNewlines
  have ran := Command.run_of_read args named read
  rw [scriptText_bytes decoded] at ran
  exact ⟨_, fault, ran, written, only⟩

/-- A document with line ends of two symbols, an unknown symbol and an unfinished declaration. -/
def twoMistakes : Text := "var x = 1\r\n@ \"s\";\r\n"

/-- The command that runs it as a script. -/
def mistakenRequest : Command.Request :=
  ⟨["a.nice"], (FileTree.empty ["home"]).insert "a.nice" (.file twoMistakes.bytes), [], .exhausted,
    []⟩

/-- Both mistakes are reported in the second line, and an editor shows both there. -/
theorem command_reports_problems_mistaken :
    twoMistakes.isDecoded = true ∧ mistakenRequest.files.read "a.nice" = .ok twoMistakes.bytes ∧
    twoMistakes.ReturnsEndLines ∧
    ∃ outcome, Command.run mistakenRequest = .ok outcome ∧
      outcome.stderr = (analyze "file:///home/a.nice" twoMistakes).report ∧
      outcome.stderr = Text.ofString ("[line 2] Error: Unexpected character.\n" ++
        "[line 2] Error at '\"s\"': Expect ';' after variable declaration.\n") := by
  have decoded : twoMistakes.isDecoded = true := by decide +kernel
  have read : mistakenRequest.files.read "a.nice" = .ok twoMistakes.bytes := by decide +kernel
  have plain : twoMistakes.ReturnsEndLines := ⟨by decide +kernel, by decide +kernel⟩
  have shown : (analyze "file:///home/a.nice" twoMistakes).report =
      Text.ofString ("[line 2] Error: Unexpected character.\n" ++
        "[line 2] Error at '\"s\"': Expect ';' after variable declaration.\n") := by
    decide +kernel
  obtain ⟨⟨outcome, fault, ran, stderr, only⟩, same, -⟩ := command_reports_problems mistakenRequest
    "file:///home/a.nice" twoMistakes "a.nice" decoded rfl (by decide) read
  rw [same plain] at stderr only
  have noFault : fault = [] := by
    refine only.resolve_right fun none => absurd none.1 ?_
    decide +kernel
  rw [noFault, List.append_nil] at stderr
  exact ⟨decoded, read, plain, outcome, ran, stderr, stderr.trans shown⟩

/-- A document in which a carriage return alone ends the line of a comment. -/
def loneReturn : Text := "// x\r@\n"

/-- The command that runs it as a script. -/
def loneReturnRequest : Command.Request :=
  ⟨["a.nice"], (FileTree.empty ["home"]).insert "a.nice" (.file loneReturn.bytes), [], .exhausted,
    []⟩

/-- To an editor what follows the carriage return is part of the comment; the command line reports
the mistake in it. -/
theorem lone_return_hides_problem :
    loneReturnRequest.files.read "a.nice" = .ok loneReturn.bytes ∧
    (analyze "file:///home/a.nice" loneReturn).problems = [] ∧
    (Command.run loneReturnRequest).toOption.map (·.stderr) =
      some (Text.ofString "[line 2] Error: Unexpected character.\n") := by
  decide +kernel

end Scriptlet.Editor
