/-
Scriptlet.Proofs.Tree.Locality — a statement is read alike wherever it stands.

No action looks further than the token ahead. So as long as a token is ahead, it
makes no difference what stands behind the last one, what was passed before the
first one and what has been reported so far: `s.within e` is the state `s` with
all these as `e` has them, and a `Local` action does the same there.

A statement ends with a semicolon, and reading it looks at nothing behind that. A
statement that could be read in one place can therefore be read in every other
(`attempt_anywhere`), and how deeply its expressions may be nested does not depend
on the place. Programs put one behind the other are read one by one
(`parse_append`).

  §1 States in other surroundings.
  §2 Actions that look at the token ahead only.
  §3 Expressions.
  §4 Statements.
  §5 Programs one behind the other.
-/
import Scriptlet.Proofs.Tree.Recognition

namespace Scriptlet.Parser

open Token (Kind)

variable {α β : Type} {p : Action α} {f : α → Action β} {s s' : State}

/-! ## §1 States in other surroundings -/

/-- What the tokens of a state stand between, and what was reported before them. -/
structure Surroundings where
  before : List Token
  behind : List Token
  last : Token
  earlier : List Diagnostic

/-- A state in other surroundings. -/
def State.within (s : State) (e : Surroundings) : State :=
  ⟨⟨s.cursor.passed ++ e.before, s.cursor.ahead ++ e.behind, e.last⟩, e.earlier ++ s.diagnostics⟩

/-- The state that an action ends in. -/
def Result.state : Result α → State
  | .ok _ s => s
  | .error _ s => s

/-- The result of an action in other surroundings. -/
def Result.within (e : Surroundings) : Result α → Result α
  | .ok a s => .ok a (s.within e)
  | .error c s => .error c (s.within e)

variable {e : Surroundings}

theorem ahead_within {t : Token} {rest : List Token} (h : s.cursor.ahead = t :: rest) :
    (s.within e).cursor.ahead = t :: (rest ++ e.behind) := by
  simp [State.within, h]

theorem peek_within (h : s.cursor.ahead ≠ []) : (s.within e).cursor.peek = s.cursor.peek := by
  obtain ⟨t, rest, head⟩ := List.exists_cons_of_ne_nil h
  simp [Cursor.peek, ahead_within head, head]

theorem pass_within (h : s.cursor.ahead ≠ []) : (s.within e).pass = s.pass.within e := by
  obtain ⟨t, rest, head⟩ := List.exists_cons_of_ne_nil h
  obtain ⟨⟨passed, ahead, last⟩, diagnostics⟩ := s
  subst head
  rfl

theorem note_within (s : State) (e : Surroundings) (t : Token) (c : Complaint) :
    (s.within e).note t c = (s.note t c).within e := by
  simp [State.within, State.note]

/-- Where some tokens are passed, everything else there surrounds these tokens as they stand
alone. -/
theorem eq_within_of_step {ts : List Token} {ds : List Diagnostic} (step : Step s ts ds s')
    (last : Token) : s = State.within ⟨.start ts last, []⟩
      ⟨s.cursor.passed, s'.cursor.ahead, s.cursor.last, s.diagnostics⟩ := by
  obtain ⟨⟨passed, ahead, last⟩, diagnostics⟩ := s
  simpa [State.within, Cursor.start] using step.ahead

theorem length_ahead_pass (s : State) : s.pass.cursor.ahead.length ≤ s.cursor.ahead.length := by
  cases h : s.cursor.ahead with
  | nil => simp [State.pass, Cursor.advance, h]
  | cons t rest => simp [ahead_pass h]

/-- Where fewer tokens are ahead and still one is, one was ahead before. -/
theorem ahead_ne_nil_of_le (le : s'.cursor.ahead.length ≤ s.cursor.ahead.length)
    (left : s'.cursor.ahead ≠ []) : s.cursor.ahead ≠ [] := by
  rw [← List.length_pos_iff] at left ⊢
  omega

/-! ## §2 Actions that look at the token ahead only -/

/-- An action that goes back over no token and does the same in all surroundings, provided that it
has left a token ahead. -/
structure Local (p : Action α) : Prop where
  shrinks : ∀ s, (Result.state (p s)).cursor.ahead.length ≤ s.cursor.ahead.length
  carries : ∀ s e, (Result.state (p s)).cursor.ahead ≠ [] →
    p (s.within e) = Result.within e (p s)

theorem Local.ahead_ne_nil (h : Local p) (left : (Result.state (p s)).cursor.ahead ≠ []) :
    s.cursor.ahead ≠ [] :=
  ahead_ne_nil_of_le (h.shrinks s) left

theorem Local.pure (a : α) : Local (pure a : Action α) :=
  ⟨fun _ => Nat.le_refl _, fun _ _ _ => rfl⟩

theorem Local.bind (hp : Local p) (hf : ∀ a, Local (f a)) : Local (p >>= f) := by
  constructor
  · intro s
    have le := hp.shrinks s
    cases h : p s with
    | ok a s₁ =>
      rw [h] at le
      rw [bind_ok h]
      exact Nat.le_trans ((hf a).shrinks s₁) le
    | error c s₁ =>
      rw [h] at le
      rwa [bind_error h]
  · intro s e left
    have carries := hp.carries s e
    cases h : p s with
    | ok a s₁ =>
      rw [h] at carries
      rw [bind_ok h] at left ⊢
      rw [bind_ok (carries ((hf a).ahead_ne_nil left))]
      exact (hf a).carries s₁ e left
    | error c s₁ =>
      rw [h] at carries
      rw [bind_error h] at left ⊢
      rw [bind_error (carries left)]
      rfl

theorem accept?_within (kinds : List Kind) (h : s.cursor.ahead ≠ []) :
    accept? kinds (s.within e) = Result.within e (accept? kinds s) := by
  obtain ⟨t, rest, head⟩ := List.exists_cons_of_ne_nil h
  by_cases hk : t.kind ∈ kinds
  · rw [accept?_of_mem head hk, accept?_of_mem (ahead_within head) hk, pass_within h]
    rfl
  · rw [accept?_of_not_sees (not_sees_of_head head hk),
      accept?_of_not_sees (not_sees_of_head (ahead_within head) hk)]
    rfl

theorem local_accept? (kinds : List Kind) : Local (accept? kinds) := by
  have shrinks : ∀ s, (Result.state (accept? kinds s)).cursor.ahead.length ≤
      s.cursor.ahead.length := by
    intro s
    rcases accept?_cases kinds s with ⟨t, rest, head, -, h⟩ | ⟨-, h⟩ <;> rw [h]
    · exact length_ahead_pass s
    · exact Nat.le_refl _
  exact ⟨shrinks, fun s e left => accept?_within kinds (ahead_ne_nil_of_le (shrinks s) left)⟩

theorem expect_within (kind : Kind) (c : Complaint) (h : s.cursor.ahead ≠ []) :
    expect kind c (s.within e) = Result.within e (expect kind c s) := by
  obtain ⟨t, rest, head⟩ := List.exists_cons_of_ne_nil h
  by_cases hk : t.kind = kind
  · rw [expect_of_kind head hk, expect_of_kind (ahead_within head) hk, pass_within h]
    rfl
  · have unseen : ∀ {s : State} {rest : List Token}, s.cursor.ahead = t :: rest →
        s.cursor.sees kind = false := by
      intro s rest head
      rw [Bool.eq_false_iff]
      exact fun seen => hk ((sees_iff head kind).mp seen)
    rw [expect_of_not_sees (unseen head), expect_of_not_sees (unseen (ahead_within head)),
      peek_within h, note_within]
    rfl

theorem local_expect (kind : Kind) (c : Complaint) : Local (expect kind c) := by
  have shrinks : ∀ s, (Result.state (expect kind c s)).cursor.ahead.length ≤
      s.cursor.ahead.length := by
    intro s
    rcases expect_cases kind c s with ⟨t, rest, head, -, h⟩ | h <;> rw [h]
    · exact length_ahead_pass s
    · exact Nat.le_refl _
  exact ⟨shrinks, fun s e left => expect_within kind c (ahead_ne_nil_of_le (shrinks s) left)⟩

theorem local_report (t : Token) (c : Complaint) : Local (report t c) := by
  refine ⟨fun s => Nat.le_refl _, fun s e _ => ?_⟩
  rw [report_eq, report_eq, note_within]
  rfl

theorem local_refuse (c : Complaint) : Local (refuse c : Action α) := by
  refine ⟨fun s => Nat.le_refl _, fun s e left => ?_⟩
  have left : s.cursor.ahead ≠ [] := left
  rw [refuse_eq, refuse_eq, peek_within left, note_within]
  rfl

theorem local_ifAccept (kinds : List Kind) {p q : Action α} (hp : Local p) (hq : Local q) :
    Local (do if (← accept? kinds).isSome then p else q) := by
  refine .bind (local_accept? kinds) fun found => ?_
  cases found with
  | none => exact hq
  | some _ => exact hp

/-! ## §3 Expressions -/

section Chains

variable {operators : List Kind} {operand : Action Expr}

theorem chainOnto_shrinks (h : Local operand) (rounds : List Token) : ∀ (left : Expr) (s : State),
    (Result.state (chainOnto operators operand rounds left s)).cursor.ahead.length ≤
      s.cursor.ahead.length := by
  induction rounds with
  | nil => exact fun left s => Nat.le_refl _
  | cons _ rounds ih =>
    intro left s
    rw [chainOnto]
    rcases accept?_cases operators s with ⟨t, rest, -, -, ha⟩ | ⟨-, ha⟩ <;> rw [bind_ok ha]
    · have pass := length_ahead_pass s
      have le := h.shrinks s.pass
      dsimp only
      cases ho : operand s.pass with
      | ok right s₁ =>
        rw [ho] at le
        rw [bind_ok ho]
        exact Nat.le_trans (ih _ s₁) (Nat.le_trans le pass)
      | error c s₁ =>
        rw [ho] at le
        rw [bind_error ho]
        exact Nat.le_trans le pass
    · exact Nat.le_refl _

/-- The loop does the same in all surroundings, though it may take more rounds there. -/
theorem chainOnto_within (h : Local operand) (e : Surroundings) (rounds : List Token) :
    ∀ (rounds' : List Token) (left : Expr) (s : State),
      s.cursor.ahead.length ≤ rounds.length →
      (s.within e).cursor.ahead.length ≤ rounds'.length →
      (Result.state (chainOnto operators operand rounds left s)).cursor.ahead ≠ [] →
      chainOnto operators operand rounds' left (s.within e) =
        Result.within e (chainOnto operators operand rounds left s) := by
  induction rounds with
  | nil =>
    intro rounds' left s enough _ more
    exact absurd (List.eq_nil_of_length_eq_zero (Nat.le_zero.mp enough)) more
  | cons _ rounds ih =>
    intro rounds' left s enough enough' more
    have ne : s.cursor.ahead ≠ [] := ahead_ne_nil_of_le (chainOnto_shrinks h _ left s) more
    obtain ⟨t, rest, head⟩ := List.exists_cons_of_ne_nil ne
    rw [ahead_within head] at enough'
    cases rounds' with
    | nil => simp at enough'
    | cons _ rounds' =>
      rw [chainOnto] at more ⊢
      rw [chainOnto]
      have carried := accept?_within (e := e) operators ne
      rcases accept?_cases operators s with ⟨t', rest', head', -, ha⟩ | ⟨-, ha⟩
      · rw [ha] at carried
        rw [bind_ok ha] at more ⊢
        rw [bind_ok carried]
        dsimp only at more ⊢
        have operand' := h.carries s.pass e
        have shorter := h.shrinks s.pass
        rw [ahead_pass head] at shorter
        cases ho : operand s.pass with
        | ok right s₁ =>
          rw [ho] at operand' shorter
          rw [bind_ok ho] at more ⊢
          rw [bind_ok (operand' (ahead_ne_nil_of_le (chainOnto_shrinks h rounds _ s₁) more))]
          have shorter : s₁.cursor.ahead.length ≤ rest.length := shorter
          rw [head] at enough
          simp only [List.length_cons, List.length_append] at enough enough'
          refine ih rounds' _ s₁ (by omega) ?_ more
          simp only [State.within, List.length_append]
          omega
        | error c s₁ =>
          rw [ho] at operand'
          rw [bind_error ho] at more ⊢
          rw [bind_error (operand' more)]
          rfl
      · rw [ha] at carried
        rw [bind_ok ha, bind_ok carried]
        rfl

theorem local_chain (h : Local operand) : Local (chain operators operand) := by
  constructor
  · intro s
    rw [chain]
    have le := h.shrinks s
    cases ho : operand s with
    | ok first s₁ =>
      rw [ho] at le
      rw [bind_ok ho]
      exact Nat.le_trans (chainOnto_shrinks h s₁.cursor.ahead first s₁) le
    | error c s₁ =>
      rw [ho] at le
      rwa [bind_error ho]
  · intro s e left
    rw [chain] at left ⊢
    have carries := h.carries s e
    cases ho : operand s with
    | ok first s₁ =>
      rw [ho] at carries
      rw [bind_ok ho] at left ⊢
      rw [bind_ok (carries (ahead_ne_nil_of_le (chainOnto_shrinks h _ first s₁) left))]
      exact chainOnto_within h e _ _ first s₁ (Nat.le_refl _) (Nat.le_refl _) left
    | error c s₁ =>
      rw [ho] at carries
      rw [bind_error ho] at left ⊢
      rw [bind_error (carries left)]
      rfl

end Chains

theorem local_expression (budget : Nat) : Local (expression budget) ∧
    (∀ operators, Local (layer budget operators)) ∧ Local (primary budget) := by
  induction budget with
  | zero =>
    refine ⟨local_refuse _, fun operators => ?_, local_refuse _⟩
    cases operators <;> exact local_refuse _
  | succ budget ih =>
    obtain ⟨expression, layer, primary⟩ := ih
    refine ⟨?_, fun operators => ?_, ?_⟩
    · refine .bind (layer levels) fun left => .bind (local_accept? [.equal]) fun found => ?_
      cases found with
      | none => exact .pure left
      | some sign =>
        refine .bind expression fun right => ?_
        cases left with
        | var name => exact .pure (Expr.assign name right)
        | literal | group | unary | binary | assign | misfit =>
          exact .bind (local_report sign .invalidTarget) fun _ => .pure _
    · cases operators with
      | cons level tighter => exact local_chain (layer tighter)
      | nil =>
        refine .bind (local_accept? prefixes) fun found => ?_
        cases found with
        | none => exact primary
        | some operator => exact .bind (layer []) fun operand => .pure (Expr.unary operator operand)
    · refine local_ifAccept _ (.pure _) (local_ifAccept _ (.pure _)
        (local_ifAccept _ (.pure _) (.bind (local_accept? _) fun found => ?_)))
      cases found with
      | some t => exact .pure (Expr.literal t.value)
      | none =>
        refine .bind (local_accept? _) fun found => ?_
        cases found with
        | some t => exact .pure (Expr.var t)
        | none =>
          refine local_ifAccept _ ?_ (local_refuse _)
          exact .bind expression fun inner => .bind (local_expect _ _) fun _ =>
            .pure (Expr.group inner)

/-! ## §4 Statements -/

/-- An action that does the same in all surroundings if it comes to an end, for which it has to pass
a token, or if it has left a token ahead. -/
def Closed (p : Action α) : Prop :=
  ∀ s, ((∃ a s', p s = .ok a s') ∨ (Result.state (p s)).cursor.ahead ≠ []) →
    s.cursor.ahead ≠ [] ∧ ∀ e, p (s.within e) = Result.within e (p s)

theorem Closed.bind (hp : Local p) (hf : ∀ a, Closed (f a)) : Closed (p >>= f) := by
  intro s ends
  have carries := hp.carries s
  have ahead := hp.ahead_ne_nil (s := s)
  cases h : p s with
  | ok a s₁ =>
    rw [h] at carries ahead
    rw [bind_ok h] at ends ⊢
    obtain ⟨left, next⟩ := hf a s₁ ends
    refine ⟨ahead left, fun e => ?_⟩
    rw [bind_ok (carries e left)]
    exact next e
  | error c s₁ =>
    rw [h] at carries ahead
    rw [bind_error h] at ends ⊢
    have left : s₁.cursor.ahead ≠ [] := by
      rcases ends with ⟨a, s', hr⟩ | left
      · cases hr
      · exact left
    refine ⟨ahead left, fun e => ?_⟩
    rw [bind_error (carries e left)]
    rfl

/-- What ends with a token that is demanded passes that token. -/
theorem closed_expect (kind : Kind) (c : Complaint) (a : α) :
    Closed (do let _ ← expect kind c; pure a : Action α) := by
  intro s ends
  have ne : s.cursor.ahead ≠ [] := by
    intro none
    rw [bind_error (expect_of_not_sees (sees_nil none kind))] at ends
    rcases ends with ⟨a, s', hr⟩ | left
    · cases hr
    · exact left none
  refine ⟨ne, fun e => ?_⟩
  have carried := expect_within (e := e) kind c ne
  rcases expect_cases kind c s with ⟨t, rest, -, -, h⟩ | h <;> rw [h] at carried
  · rw [bind_ok h, bind_ok carried]
    rfl
  · rw [bind_error h, bind_error carried]
    rfl

theorem closed_ifAccept (kinds : List Kind) {p q : Action α} (hp : Closed p) (hq : Closed q) :
    Closed (do if (← accept? kinds).isSome then p else q) := by
  refine .bind (local_accept? kinds) fun found => ?_
  cases found with
  | none => exact hq
  | some _ => exact hp

theorem closed_varStatement (budget : Nat) : Closed (varStatement budget) := by
  refine .bind (local_expect _ _) fun name => closed_ifAccept [.equal] ?_ ?_
  · refine .bind (p := some <$> expression budget) ?_ fun initial => closed_expect _ _ _
    exact .bind (local_expression budget).1 fun e => .pure (some e)
  · exact .bind (.pure none) fun initial => closed_expect _ _ _

theorem closed_attempt (budget : Nat) : Closed (attempt budget) := by
  have expression := (local_expression budget).1
  refine closed_ifAccept _ (closed_varStatement budget) (closed_ifAccept _ ?_ ?_)
  · exact .bind expression fun e => closed_expect _ _ _
  · exact .bind expression fun e => closed_expect _ _ _

/-- A statement that is read in one place is read in every other. -/
theorem attempt_anywhere {budget : Nat} {ts : List Token} {stmt : Stmt} {t t' : State}
    (declared : Declares ts stmt []) (step : Step s ts [] s')
    (read : attempt budget s = .ok stmt s') (step' : Step t ts [] t') :
    attempt budget t = .ok stmt t' := by
  -- alone, the statement is read to its semicolon, or refused before that
  have ends : (∃ a s', attempt budget ⟨.start ts default, []⟩ = .ok a s') ∨
      (Result.state (attempt budget ⟨.start ts default, []⟩)).cursor.ahead ≠ [] := by
    have ends := attempt_ends budget ⟨.start ts default, []⟩
    generalize attempt budget ⟨.start ts default, []⟩ = r at ends
    cases ends with
    | ok _ _ => exact .inl ⟨_, _, rfl⟩
    | @error us signs c s₁ inside _ alone =>
      refine .inr fun none => ?_
      have whole : ts = us ++ s₁.cursor.ahead := alone.ahead
      obtain ⟨body, stop, rfl, isStop, -⟩ := declared.exists_stop
      have none : s₁.cursor.ahead = [] := none
      rw [none, List.append_nil] at whole
      exact inside.noStop stop (by simp [← whole]) isStop
  obtain ⟨-, carries⟩ := closed_attempt budget _ ends
  rcases attempt_of_declares budget declared step' with done | ⟨s₁, deep⟩
  · exact done
  · rw [eq_within_of_step step default, carries] at read
    rw [eq_within_of_step step' default, carries] at deep
    cases h : attempt budget ⟨.start ts default, []⟩ with
    | ok a s₂ => rw [h] at deep; cases deep
    | error c s₂ => rw [h] at read; cases read

/-! ## §5 Programs one behind the other -/

/-- The tokens are a statement that is read wherever it stands. -/
def Reads (budget : Nat) (ts : List Token) (stmt : Stmt) : Prop :=
  Declares ts stmt [] ∧ ∀ s s', Step s ts [] s' → attempt budget s = .ok stmt s'

/-- What is read without a diagnostic are statements that are read wherever they stand. -/
theorem reads_of_entries (budget : Nat) : ∀ (rounds : List Token) {s s' : State} {es : List Entry},
    entries budget rounds s = .ok es s' → s.cursor.ahead.length ≤ rounds.length →
    s'.diagnostics = s.diagnostics →
    ∃ parts : List (List Token × Stmt), es = parts.map (fun part => some part.2) ∧
      s.cursor.ahead = parts.flatMap (·.1) ∧ ∀ part ∈ parts, Reads budget part.1 part.2
  | [], s, s', es, run, enough, _ => by
      have none : s.cursor.ahead = [] := List.eq_nil_of_length_eq_zero (Nat.le_zero.mp enough)
      injection run with hes
      exact ⟨[], by rw [← hes]; rfl, none, by simp⟩
  | _ :: rounds, s, s', es, run, enough, quiet => by
      have hend : atEnd s = .ok s.cursor.atEnd s := rfl
      rw [entries, bind_ok hend] at run
      cases done : s.cursor.atEnd with
      | true =>
        rw [done] at run
        injection run with hes
        exact ⟨[], by rw [← hes]; rfl, List.isEmpty_iff.mp done, by simp⟩
      | false =>
        rw [done, if_neg Bool.false_ne_true] at run
        obtain ⟨entry, s₁, ds₁, first, diag₁⟩ := declaration_extends budget s
        obtain ⟨es', s₂, ds, others, diag⟩ := entries_extends budget rounds s₁
        rw [bind_ok first, bind_ok others] at run
        injection run with hes hs
        subst hs
        have none : ds₁ = [] ∧ ds = [] := by
          rw [diag, diag₁, List.append_assoc] at quiet
          simpa using quiet
        have ends := attempt_ends budget s
        rw [declaration_eq] at first
        cases tried : attempt budget s with
        | error c s₃ =>
          rw [tried] at first ends
          injection first with _ hs₁
          cases ends with
          | error _ _ step =>
            have noted := step.diagnostics
            rw [← hs₁] at diag₁
            rw [show s₃.diagnostics = s.diagnostics ++ ds₁ from diag₁, none.1] at noted
            simp at noted
        | ok stmt s₃ =>
          rw [tried] at first ends
          injection first with he hs₁
          subst hs₁
          cases ends with
          | @ok ts signs _ _ declared step =>
            have noSigns : signs = [] := by
              have noted := step.diagnostics
              rw [diag₁, none.1] at noted
              simpa [misplaced] using noted
            subst noSigns
            have pos := List.length_pos_iff.mpr declared.ne_nil
            have ahead := step.ahead
            have shorter : s₃.cursor.ahead.length ≤ rounds.length := by
              rw [ahead, List.length_append, List.length_cons] at enough
              omega
            obtain ⟨parts, hp, tokens, reads⟩ :=
              reads_of_entries budget rounds others shorter (by rw [diag, none.2, List.append_nil])
            refine ⟨(ts, stmt) :: parts, ?_, ?_, ?_⟩
            · rw [← hes, ← he, hp]
              rfl
            · rw [ahead, tokens]
              rfl
            · intro part mem
              rcases List.mem_cons.mp mem with rfl | mem
              · exact ⟨declared, fun t t' => attempt_anywhere declared step tried⟩
              · exact reads part mem

/-- Tokens that are read as one entry, and what is reported about them. -/
structure Portion where
  tokens : List Token
  entry : Entry
  diagnostics : List Diagnostic

/-- A portion that is read as its entry wherever it stands. -/
structure Portion.Taken (budget : Nat) (p : Portion) : Prop where
  ne_nil : p.tokens ≠ []
  read : ∀ {s s'}, Step s p.tokens p.diagnostics s' → declaration budget s = .ok p.entry s'

theorem Reads.taken {budget : Nat} {ts : List Token} {stmt : Stmt} (h : Reads budget ts stmt) :
    Portion.Taken budget ⟨ts, some stmt, []⟩ where
  ne_nil := h.1.ne_nil
  read step := by rw [declaration_eq, h.2 _ _ step]

/-- Portions that are read wherever they stand are read one behind the other. -/
theorem entries_of_portions (budget : Nat) (portions : List Portion)
    (taken : ∀ p ∈ portions, p.Taken budget) : ∀ (rounds : List Token) {s s' : State},
    Step s (portions.flatMap Portion.tokens) (portions.flatMap Portion.diagnostics) s' →
    s'.cursor.ahead = [] → (portions.flatMap Portion.tokens).length ≤ rounds.length →
    entries budget rounds s = .ok (portions.map Portion.entry) s' := by
  induction portions with
  | nil =>
    intro rounds s s' step done _
    obtain rfl : s = s' := (Step.refl s).unique step
    exact entries_at_end budget rounds done
  | cons p portions ih =>
    intro rounds s s' step done enough
    have first := taken p List.mem_cons_self
    rw [List.flatMap_cons, List.flatMap_cons] at step
    obtain ⟨s₁, step₁, step₂⟩ := step.split
    have pos := List.length_pos_iff.mpr first.ne_nil
    rw [List.flatMap_cons, List.length_append] at enough
    have more : s.cursor.ahead ≠ [] := by simp [step₁.ahead, first.ne_nil]
    cases rounds with
    | nil =>
      rw [List.length_nil] at enough
      omega
    | cons _ rounds =>
      rw [List.length_cons] at enough
      exact entries_of_declaration more (first.read step₁)
        (ih (fun q hq => taken q (List.mem_cons_of_mem _ hq)) rounds step₂ done (by omega))

end Parser

namespace Lexed

variable {l l₁ l₂ : Lexed} {budget : Nat}

/-- The portions of tokens about which nothing is reported. -/
theorem exists_portions (quiet : (l.parse budget).2 = []) :
    ∃ portions : List Parser.Portion, (l.parse budget).1 = portions.map Parser.Portion.entry ∧
      l.tokens = portions.flatMap Parser.Portion.tokens ∧
      portions.flatMap Parser.Portion.diagnostics = [] ∧ ∀ p ∈ portions, p.Taken budget := by
  obtain ⟨es, s', ds, run, diag⟩ :=
    Parser.entries_extends budget l.tokens ⟨.start l.tokens l.last, []⟩
  have whole : Parser.program budget ⟨.start l.tokens l.last, []⟩ = .ok es s' := run
  rw [parse, whole] at quiet ⊢
  obtain ⟨parts, rfl, tokens, reads⟩ :=
    Parser.reads_of_entries budget l.tokens run (Nat.le_refl _) quiet
  refine ⟨parts.map fun part => ⟨part.1, some part.2, []⟩, ?_, ?_, ?_, ?_⟩
  · simp
  · rw [List.flatMap_map]
    exact tokens
  · rw [List.flatMap_map]
    exact List.flatMap_eq_nil_iff.mpr fun _ _ => rfl
  · simp only [List.mem_map, forall_exists_index, and_imp, forall_apply_eq_imp_iff₂]
    exact fun part mem => (reads part mem).taken

theorem parse_of_portions {portions : List Parser.Portion}
    (tokens : l.tokens = portions.flatMap Parser.Portion.tokens)
    (taken : ∀ p ∈ portions, p.Taken budget) :
    l.parse budget =
      (portions.map Parser.Portion.entry, portions.flatMap Parser.Portion.diagnostics) := by
  have step : Parser.Step ⟨.start l.tokens l.last, []⟩ (portions.flatMap Parser.Portion.tokens)
      (portions.flatMap Parser.Portion.diagnostics)
      ⟨⟨l.tokens.reverse, [], l.last⟩, portions.flatMap Parser.Portion.diagnostics⟩ := by
    rw [← tokens]
    exact ⟨(List.append_nil _).symm, (List.append_nil _).symm, rfl, rfl⟩
  have enough : (portions.flatMap Parser.Portion.tokens).length ≤ l.tokens.length := by
    simp [tokens]
  have run := Parser.entries_of_portions budget portions taken l.tokens step rfl enough
  have whole : Parser.program budget ⟨.start l.tokens l.last, []⟩ = _ := run
  rw [parse, whole]

/-- **Programs one behind the other are read one by one.** If nothing is reported about either of
two lists of tokens, nothing is reported about both put together, and the statements are those of
the first and then those of the second. -/
theorem parse_append (tokens : l.tokens = l₁.tokens ++ l₂.tokens)
    (quiet₁ : (l₁.parse budget).2 = []) (quiet₂ : (l₂.parse budget).2 = []) :
    l.parse budget = ((l₁.parse budget).1 ++ (l₂.parse budget).1, []) := by
  obtain ⟨portions₁, entries₁, tokens₁, quiet₁, taken₁⟩ := exists_portions quiet₁
  obtain ⟨portions₂, entries₂, tokens₂, quiet₂, taken₂⟩ := exists_portions quiet₂
  have both : l.tokens = (portions₁ ++ portions₂).flatMap Parser.Portion.tokens := by
    rw [tokens, tokens₁, tokens₂, List.flatMap_append]
  have all : ∀ p ∈ portions₁ ++ portions₂, p.Taken budget := by
    intro p mem
    exact (List.mem_append.mp mem).elim (taken₁ p) (taken₂ p)
  rw [parse_of_portions both all, entries₁, entries₂, List.map_append, List.flatMap_append, quiet₁,
    quiet₂, List.append_nil]

end Lexed

end Scriptlet
