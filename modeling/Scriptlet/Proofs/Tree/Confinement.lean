/-
Scriptlet.Proofs.Tree.Confinement — a mistake stays in its statement.

Where a statement is refused, reading skips to the next boundary. It passes the
token at which it unwound, whatever that is, and then goes on to the first
semicolon, unless a word that starts a statement stands before it. The semicolon
that ends the statement has not been passed when reading unwinds, for none is ever
passed inside a statement. So the skipping ends right behind it, wherever in the
statement the mistake is (`synchronize_past_stop`).

What is reported until then does not depend on what stands around the statement
(`taken_of_refused`). The statements before it and behind it are therefore read as
if it were not there.

  §1 Skipping to a semicolon.
  §2 A statement that is refused.
  §3 Programs around a mistake.
-/
import Scriptlet.Proofs.Tree.Locality

namespace Scriptlet

open Token (Kind)

/-! ## §1 Skipping to a semicolon -/

namespace Cursor

variable {last stop : Token} {behind : List Token}

/-- Behind a semicolon there is nothing to skip. -/
theorem skipFrom_behind_stop (isStop : stop.kind = .semicolon) (passed : List Token) :
    skipFrom last (stop :: passed) behind = ⟨stop :: passed, behind, last⟩ := by
  cases behind with
  | nil => rfl
  | cons t behind =>
    rw [skipFrom, if_pos]
    simp [atBoundary, previous, isStop]

/-- Inside a statement, skipping passes everything up to the semicolon and the semicolon too. -/
theorem skipFrom_past_stop (isStop : stop.kind = .semicolon) (rest : List Token)
    (noStop : ∀ t ∈ rest, t.kind ≠ .semicolon)
    (noStart : ∀ t ∈ rest, t.kind.startsStatement = false) :
    ∀ {latest : Token} {passed : List Token}, latest.kind ≠ .semicolon →
      skipFrom last (latest :: passed) (rest ++ stop :: behind) =
        ⟨stop :: (rest.reverse ++ latest :: passed), behind, last⟩ := by
  induction rest with
  | nil =>
    intro latest passed inside
    have noBoundary : ¬ (⟨latest :: passed, stop :: behind, last⟩ : Cursor).atBoundary = true := by
      simp [atBoundary, atEnd, previous, peek, inside, isStop, Kind.startsStatement]
    rw [List.nil_append, skipFrom, if_neg noBoundary, skipFrom_behind_stop isStop]
    rfl
  | cons t rest ih =>
    intro latest passed inside
    rw [List.forall_mem_cons] at noStop noStart
    have noBoundary :
        ¬ (⟨latest :: passed, t :: (rest ++ stop :: behind), last⟩ : Cursor).atBoundary = true := by
      simp [atBoundary, atEnd, previous, peek, inside, noStart.1]
    rw [List.cons_append, skipFrom, if_neg noBoundary, ih noStop.2 noStart.2 noStop.1]
    simp

/-- From inside a statement reading goes on right behind its semicolon, if none of the words that
start statements stands between. The token ahead is passed in any case, so it may be such a word. -/
theorem synchronize_past_stop {c : Cursor} {rest : List Token} (isStop : stop.kind = .semicolon)
    (ahead : c.ahead = rest ++ stop :: behind) (noStop : ∀ t ∈ rest, t.kind ≠ .semicolon)
    (noStart : ∀ t ∈ rest.tail, t.kind.startsStatement = false) :
    c.synchronize = ⟨stop :: (rest.reverse ++ c.passed), behind, c.last⟩ := by
  obtain ⟨passed, _, last⟩ := c
  subst ahead
  cases rest with
  | nil => exact skipFrom_behind_stop isStop passed
  | cons t rest =>
    rw [List.forall_mem_cons] at noStop
    have skipped : skipFrom last (t :: passed) (rest ++ stop :: behind) = _ :=
      skipFrom_past_stop isStop rest noStop.2 noStart noStop.1
    show skipFrom last (t :: passed) (rest ++ stop :: behind) = _
    rw [skipped]
    simp

end Cursor

namespace Parser

/-! ## §2 A statement that is refused -/

variable {budget : Nat} {body : List Token} {stop last : Token} {c : Complaint} {s : State}

/-- Of tokens up to a semicolon all have been passed, or the semicolon is still ahead. -/
theorem split_at_stop {ts ahead : List Token} (h : body ++ [stop] = ts ++ ahead) :
    (ts = body ++ [stop] ∧ ahead = []) ∨ ∃ rest, body = ts ++ rest ∧ ahead = rest ++ [stop] := by
  rcases ahead.eq_nil_or_concat with rfl | ⟨rest, t, rfl⟩
  · exact .inl ⟨by rw [h, List.append_nil], rfl⟩
  · rw [List.concat_eq_append, ← List.append_assoc] at h
    obtain ⟨rfl, same⟩ := List.append_inj' h rfl
    exact .inr ⟨rest, rfl, by rw [same, List.concat_eq_append]⟩

/-- Where a statement is refused, its semicolon is still ahead. -/
theorem exists_rest_of_refused (isStop : stop.kind = .semicolon)
    (refused : attempt budget ⟨.start (body ++ [stop]) last, []⟩ = .error c s) :
    ∃ ts rest, body = ts ++ rest ∧ s.cursor.passed = ts.reverse ∧
      s.cursor.ahead = rest ++ [stop] := by
  have ends := attempt_ends budget ⟨.start (body ++ [stop]) last, []⟩
  rw [refused] at ends
  cases ends with
  | @error ts signs _ _ inside _ step =>
    rcases split_at_stop step.ahead with ⟨rfl, -⟩ | ⟨rest, whole, ahead⟩
    · exact absurd isStop (inside.noStop stop (by simp))
    · exact ⟨ts, rest, whole, step.passed.trans (List.append_nil _), ahead⟩

/-- A statement that is refused where it stands alone is dropped up to its semicolon wherever it
stands, and what is reported is the same. -/
theorem Portion.taken_of_refused (isStop : stop.kind = .semicolon)
    (noStop : ∀ t ∈ body, t.kind ≠ .semicolon)
    (noStart : ∀ t ∈ body.tail, t.kind.startsStatement = false)
    (refused : attempt budget ⟨.start (body ++ [stop]) last, []⟩ = .error c s) :
    Portion.Taken budget ⟨body ++ [stop], none, s.diagnostics⟩ := by
  obtain ⟨ts, rest, rfl, passed, ahead⟩ := exists_rest_of_refused isStop refused
  have left : (Result.state (attempt budget ⟨.start (ts ++ rest ++ [stop]) last, []⟩)).cursor.ahead
      ≠ [] := by
    rw [refused]
    show s.cursor.ahead ≠ []
    simp [ahead]
  obtain ⟨-, carries⟩ := closed_attempt budget _ (.inr left)
  rw [refused] at carries
  -- reading goes on behind the semicolon, whatever stands around the statement
  have resumes (e : Surroundings) : (s.within e).cursor.synchronize =
      ⟨(ts ++ rest ++ [stop]).reverse ++ e.before, e.behind, e.last⟩ := by
    have ahead : (s.within e).cursor.ahead = rest ++ stop :: e.behind := by
      simp [State.within, ahead]
    rw [Cursor.synchronize_past_stop isStop ahead]
    · simp [State.within, passed]
    · exact fun t mem => noStop t (List.mem_append_right _ mem)
    · intro t mem
      cases ts with
      | nil => exact noStart t mem
      | cons _ ts => exact noStart t (List.mem_append_right ts (List.mem_of_mem_tail mem))
  refine ⟨by simp, fun {t t'} step => ?_⟩
  rw [eq_within_of_step step last, declaration_eq, carries]
  obtain ⟨⟨passed', ahead', last'⟩, diagnostics'⟩ := t'
  have hp := step.passed
  have hl := step.last
  have hd := step.diagnostics
  simp only at hp hl hd
  subst hp hl hd
  show EStateM.Result.ok none (⟨(s.within _).cursor.synchronize, _⟩ : State) = _
  rw [resumes]
  rfl

end Parser

namespace Lexed

/-! ## §3 Programs around a mistake -/

variable {l before mistake after whole : Lexed} {body : List Token} {stop : Token} {budget : Nat}

/-- If one declaration is all there is, the program has one entry. -/
theorem parse_of_declaration {entry : Entry} {s : Parser.State} (nonempty : l.tokens ≠ [])
    (read : Parser.declaration budget ⟨.start l.tokens l.last, []⟩ = .ok entry s)
    (done : s.cursor.ahead = []) : l.parse budget = ([entry], s.diagnostics) := by
  obtain ⟨t, rounds, head⟩ := List.exists_cons_of_ne_nil nonempty
  have run := Parser.entries_of_declaration (t := t) nonempty read
    (Parser.entries_at_end budget rounds done)
  rw [← head] at run
  have all : Parser.program budget ⟨.start l.tokens l.last, []⟩ = _ := run
  rw [parse, all]

/-- Something other than a misplaced sign is reported about a statement only if reading it
unwinds. -/
theorem exists_error_of_refused (mistaken : mistake.tokens = body ++ [stop])
    (noStop : ∀ t ∈ body, t.kind ≠ .semicolon)
    (refused : ∃ d ∈ (mistake.parse budget).2, d.complaint ≠ .invalidTarget) :
    ∃ c s, Parser.attempt budget ⟨.start mistake.tokens mistake.last, []⟩ = .error c s := by
  have ends := Parser.attempt_ends budget ⟨.start mistake.tokens mistake.last, []⟩
  cases tried : Parser.attempt budget ⟨.start mistake.tokens mistake.last, []⟩ with
  | error c s => exact ⟨c, s, rfl⟩
  | ok stmt s =>
    rw [tried] at ends
    cases ends with
    | @ok ts signs _ _ declared step =>
      -- the statement that was read has a semicolon, and there is only the one at the end
      obtain ⟨front, last, rfl, isStop, -⟩ := declared.exists_stop
      have done : s.cursor.ahead = [] := by
        rcases Parser.split_at_stop (mistaken.symm.trans step.ahead) with ⟨-, done⟩ | ⟨rest, rfl, -⟩
        · exact done
        · exact absurd isStop (noStop last (by simp))
      have read : Parser.declaration budget ⟨.start mistake.tokens mistake.last, []⟩ =
          .ok (some stmt) s := by rw [Parser.declaration_eq, tried]
      obtain ⟨d, mem, unwinding⟩ := refused
      rw [parse_of_declaration (by simp [mistaken]) read done, step.diagnostics] at mem
      obtain ⟨sign, -, rfl⟩ := List.mem_map.mp mem
      exact absurd rfl unwinding

/-- **A mistake does not cascade.** Between two programs let there be a statement that is refused,
with no semicolon but the one at its end and without words that start statements behind its first
token. Then reading all of it gives the statements of the first program, one gap, and the statements
of the second, and reports exactly what is reported about the refused statement alone. -/
theorem parse_past_mistake (quiet : (before.parse budget).2 = [])
    (quiet' : (after.parse budget).2 = []) (mistaken : mistake.tokens = body ++ [stop])
    (isStop : stop.kind = .semicolon) (noStop : ∀ t ∈ body, t.kind ≠ .semicolon)
    (noStart : ∀ t ∈ body.tail, t.kind.startsStatement = false)
    (refused : ∃ d ∈ (mistake.parse budget).2, d.complaint ≠ .invalidTarget)
    (tokens : whole.tokens = before.tokens ++ (mistake.tokens ++ after.tokens)) :
    whole.parse budget = ((before.parse budget).1 ++ none :: (after.parse budget).1,
      (mistake.parse budget).2) := by
  obtain ⟨c, s, unwound⟩ := exists_error_of_refused mistaken noStop refused
  rw [mistaken] at unwound
  have dropped := Parser.Portion.taken_of_refused isStop noStop noStart unwound
  obtain ⟨portions, entries, tokens₁, silent, taken⟩ := exists_portions quiet
  obtain ⟨portions', entries', tokens₂, silent', taken'⟩ := exists_portions quiet'
  have alone : mistake.parse budget = ([none], s.diagnostics) := by
    have portion : mistake.tokens =
        [(⟨body ++ [stop], none, s.diagnostics⟩ : Parser.Portion)].flatMap
          Parser.Portion.tokens := by
      simp [mistaken]
    rw [parse_of_portions portion (by simpa using dropped)]
    simp
  have all : whole.tokens = (portions ++ ⟨body ++ [stop], none, s.diagnostics⟩ :: portions').flatMap
      Parser.Portion.tokens := by
    rw [tokens, tokens₁, mistaken, tokens₂, List.flatMap_append, List.flatMap_cons]
  rw [parse_of_portions all, alone, entries, entries']
  · simp [silent, silent']
  · intro p mem
    rcases List.mem_append.mp mem with mem | mem
    · exact taken p mem
    · rcases List.mem_cons.mp mem with rfl | mem
      · exact dropped
      · exact taken' p mem

/-- The tokens of a program with a mistake in its second line. -/
def mistakenTokens : Lexed := Text.lex "print 1;\n(2 = 3) 4 + );\nvar x;"

/-- The statement in the middle is refused at its sixth token, after a sign in it was reported. What
stands behind that token in the same line is skipped, and the third line is read. -/
theorem parse_past_mistake_midway :
    let first : Lexed := { mistakenTokens with tokens := mistakenTokens.slice 0 3 }
    let second : Lexed := { mistakenTokens with tokens := mistakenTokens.slice 3 12 }
    let third : Lexed := { mistakenTokens with tokens := mistakenTokens.slice 12 15 }
    (first.parse 20).2 = [] ∧ (third.parse 20).2 = [] ∧
    (second.parse 20).2.map Diagnostic.text =
      [Text.ofString "[line 2] Error at '=': Invalid assignment target.",
        Text.ofString "[line 2] Error at '4': Expect ';' after expression."] ∧
    mistakenTokens.parse 20 =
      ((first.parse 20).1 ++ none :: (third.parse 20).1, (second.parse 20).2) := by
  intro first second third
  have quiet : (first.parse 20).2 = [] := by decide +kernel
  have quiet' : (third.parse 20).2 = [] := by decide +kernel
  have mistaken : second.tokens = mistakenTokens.slice 3 11 ++ [mistakenTokens.tokenAt 11] := by
    decide +kernel
  refine ⟨quiet, quiet', by decide +kernel, ?_⟩
  refine parse_past_mistake quiet quiet' mistaken ?_ ?_ ?_ ?_ ?_
  all_goals decide +kernel

end Lexed

end Scriptlet
