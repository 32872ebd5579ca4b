/-
Scriptlet.Proofs.Tree.Pace — the parser spends its budget on what is pending.

Wherever the parser stands in an expression, its budget is what the pending frames
have left of the whole (`read_paced`). It keeps pace with `Nesting`, token by
token, so that it runs out of budget only where more frames are pending than the
whole budget has.

Tokens that fit the budget are therefore read without a word about their nesting,
whatever else is wrong with them (`shallow_of_fits`). Reading resumes only where
nothing is pending, so the statements do not add up. And tokens that are read
without any diagnostic do fit (`fits_of_quiet`).

  §1 Actions that keep pace.
  §2 Expressions.
  §3 Statements.
  §4 Programs.
-/
import Scriptlet.Proofs.Tree.Nesting
import Scriptlet.Proofs.Tree.Locality

namespace Scriptlet

open Token (Kind)

/-! ## §1 Actions that keep pace -/

namespace Parser

open Nesting (Fits)

variable {α β : Type} {limit : Nat} {n : Nesting} {done final : Nesting → Prop}
variable {p : Action α} {f : α → Action β} {s s' : State} {ts : List Token}

/-- How an action may end that starts in `s` with `n` pending: the tokens it passed fit the limit
and leave pending what `done` allows, or more is pending than the limit where nesting was too
deep. -/
inductive Paced (limit : Nat) (done : Nesting → Prop) (n : Nesting) (s : State) :
    Result α → Prop where
  | ok {ts : List Token} {ds : List Diagnostic} {a : α} {s' : State} (step : Step s ts ds s')
      (fits : Fits limit n ts) (ends : done (n.behind ts)) : Paced limit done n s (.ok a s')
  | deep {ts : List Token} {ds : List Diagnostic} {s' : State} (step : Step s ts ds s')
      (exceeds : limit < (n.behind ts).frames) : Paced limit done n s (.error .nestingTooDeep s')
  | refused {c : Complaint} {s' : State} (other : c ≠ .nestingTooDeep) :
      Paced limit done n s (.error c s')

namespace Paced

/-- What follows some tokens that fit keeps pace as the whole does. -/
theorem after {ds : List Diagnostic} {r : Result α} (step : Step s ts ds s')
    (fits : Fits limit n ts) (h : Paced limit done (n.behind ts) s' r) :
    Paced limit done n s r := by
  have join : ∀ us, (n.behind ts).behind us = n.behind (ts ++ us) := by
    intro us
    exact List.foldl_append.symm
  cases h with
  | ok step' fits' ends =>
    exact .ok (step.trans step') (Nesting.fits_append.mpr ⟨fits, fits'⟩) (join _ ▸ ends)
  | deep step' exceeds => exact .deep (step.trans step') (join _ ▸ exceeds)
  | refused other => exact .refused other

/-- A token is passed. If what is pending behind it fits, what is pending at it has to fit too. -/
theorem pass {t : Token} {rest : List Token} {r : Result α} (head : s.cursor.ahead = t :: rest)
    (le : (n.step t).frames ≤ limit → n.frames ≤ limit)
    (h : Paced limit done (n.step t) s.pass r) : Paced limit done n s r := by
  by_cases fits : (n.step t).frames ≤ limit
  · exact after (step_pass head)
      (Nesting.fits_cons.mpr ⟨le fits, Nesting.fits_nil.mpr fits⟩) h
  · cases h with
    | ok _ fits' _ => exact absurd fits'.frames_le fits
    | deep step' exceeds => exact .deep ((step_pass head).trans step') exceeds
    | refused other => exact .refused other

theorem value {a : α} (fits : n.frames ≤ limit) (ends : done n) :
    Paced limit done n s (.ok a s) :=
  .ok (.refl s) (Nesting.fits_nil.mpr fits) ends

theorem bind (h : Paced limit done n s (p s))
    (next : ∀ {m a s'}, done m → m.frames ≤ limit → Paced limit final m s' (f a s')) :
    Paced limit final n s ((p >>= f) s) := by
  generalize hr : p s = r at h
  cases h with
  | ok step fits ends =>
    rw [bind_ok hr]
    exact after step fits (next ends fits.behind_le)
  | deep step exceeds =>
    rw [bind_error hr]
    exact .deep step exceeds
  | refused other =>
    rw [bind_error hr]
    exact .refused other

/-- An action that begins by asking for a token goes on in one of two ways. -/
theorem accept? {kinds : List Kind} {f : Option Token → Action α}
    (le : ∀ t : Token, t.kind ∈ kinds → (n.step t).frames ≤ limit → n.frames ≤ limit)
    (found : ∀ t : Token, t.kind ∈ kinds →
      Paced limit done (n.step t) s.pass (f (some t) s.pass))
    (missing : Paced limit done n s (f none s)) :
    Paced limit done n s ((Parser.accept? kinds >>= f) s) := by
  rcases accept?_cases kinds s with ⟨t, rest, head, hk, h⟩ | ⟨-, h⟩
  · rw [bind_ok h]
    exact pass head (le t hk) (found t hk)
  · rw [bind_ok h]
    exact missing

theorem refuse {c : Complaint} (other : c ≠ .nestingTooDeep) :
    Paced limit done n s (Parser.refuse c s : Result α) := by
  rw [refuse_eq]
  exact .refused other

theorem expect {kind : Kind} {c : Complaint} {f : Token → Action α} (other : c ≠ .nestingTooDeep)
    (fits : n.frames ≤ limit)
    (next : ∀ t : Token, t.kind = kind → Paced limit done (n.step t) s.pass (f t s.pass)) :
    Paced limit done n s ((Parser.expect kind c >>= f) s) := by
  rcases expect_cases kind c s with ⟨t, rest, head, hk, h⟩ | h
  · rw [bind_ok h]
    exact pass head (fun _ => fits) (next t hk)
  · rw [bind_error h]
    exact .refused other

end Paced

/-! ## §2 Expressions -/

/-- Behind an operand, each operator is followed by an operand that begins as the first did. -/
theorem chainOnto_paced {operators : List Kind} {operand : Action Expr}
    (isOperator : ∀ t : Token, t.kind ∈ operators → n.ended.step t = n)
    (fits : n.ended.frames ≤ limit)
    (h : ∀ s, Paced limit (· = n.ended) n s (operand s)) (rounds : List Token) :
    ∀ (left : Expr) (s : State),
      Paced limit (· = n.ended) n.ended s (chainOnto operators operand rounds left s) := by
  induction rounds with
  | nil => exact fun left s => .value fits rfl
  | cons _ rounds ih =>
    intro left s
    rw [chainOnto]
    refine .accept? (fun _ _ _ => fits) (fun t hk => ?_) (.value fits rfl)
    rw [isOperator t hk]
    refine .bind (h s.pass) ?_
    rintro m right s' rfl -
    exact ih _ s'

theorem chain_paced {operators : List Kind} {operand : Action Expr}
    (isOperator : ∀ t : Token, t.kind ∈ operators → n.ended.step t = n)
    (h : ∀ s, Paced limit (· = n.ended) n s (operand s)) (s : State) :
    Paced limit (· = n.ended) n s (chain operators operand s) := by
  rw [chain]
  refine .bind (h s) ?_
  rintro m first s' rfl fits
  exact chainOnto_paced isOperator fits h s'.cursor.ahead first s'

/-- A level of operators keeps pace if the next tighter one does. -/
theorem level_paced {c d : Category} {budget : Nat} (next : c.tighter = some d)
    (level : c.operators ≠ []) (turn : n.turn = .operand) (idle : n.here.operators = 0)
    (h : ∀ s, Paced limit (n.Ends d) n s (d.read budget s)) (s : State) :
    Paced limit (n.Ends c) n s (c.read (budget + 1) s) := by
  have outer : n.Ends c = (· = n.ended) := by
    cases c <;> first | rfl | exact absurd rfl level
  have inner : n.Ends d = (· = n.ended) := by
    cases c <;> cases next <;> rfl
  rw [inner] at h
  rw [outer, Category.read_succ_of_operators next level]
  exact chain_paced (fun t hk => Nesting.step_operator turn idle hk) h s

theorem unary_paced {budget : Nat} (turn : n.turn = .operand)
    (hu : ∀ s, Paced limit (· = n.prefixed.ended) n.prefixed s (layer budget [] s))
    (hp : ∀ s, Paced limit (· = n.ended) n s (primary budget s)) (s : State) :
    Paced limit (· = n.ended) n s (layer (budget + 1) [] s) := by
  rw [layer]
  refine .accept? (fun t hk fits => ?_) (fun t hk => ?_) (hp s)
  · rw [Nesting.step_prefix turn hk, Nesting.frames_prefixed] at fits
    omega
  · rw [Nesting.step_prefix turn hk]
    refine .bind (hu s.pass) ?_
    rintro m operand s' rfl fits
    exact .value fits rfl

/-- A primary expression is one token, or an expression between parentheses. -/
theorem primary_paced {budget : Nat} (turn : n.turn = .operand) (fits : n.frames ≤ limit)
    (h : ∀ s, Paced limit (·.around = n.opened.around) n.opened s (expression budget s))
    (s : State) : Paced limit (· = n.ended) n s (primary (budget + 1) s) := by
  have ended : ∀ {s : State} {e : Expr} {m : Nesting}, m = n.ended →
      Paced limit (· = n.ended) m s (.ok e s) := by
    rintro s e m rfl
    exact .value (Nat.le_trans n.frames_ended_le fits) rfl
  have le : ∀ {kinds : List Kind} (t : Token), t.kind ∈ kinds → (n.step t).frames ≤ limit →
      n.frames ≤ limit := fun _ _ _ => fits
  have single : ∀ {t : Token} {kind : Kind}, t.kind ∈ [kind] → t.kind = kind :=
    fun h => List.mem_singleton.mp h
  rw [primary]
  refine .accept? le (fun t hk => ended (Nesting.step_constant (v := .bool false) ?_)) ?_
  · rw [Token.constant?, single hk]
  refine .accept? le (fun t hk => ended (Nesting.step_constant (v := .bool true) ?_)) ?_
  · rw [Token.constant?, single hk]
  refine .accept? le (fun t hk => ended (Nesting.step_constant (v := .nil) ?_)) ?_
  · rw [Token.constant?, single hk]
  refine .accept? le (fun t hk => ended (Nesting.step_constant (v := t.value) ?_)) ?_
  · have hk : t.kind = .number ∨ t.kind = .string := by simpa using hk
    rcases hk with hk | hk <;> rw [Token.constant?, hk]
  refine .accept? le (fun t hk => ended (Nesting.step_name turn (single hk))) ?_
  refine .accept? le (fun t hk => ?_) (.refuse (by decide))
  rw [Nesting.step_opening (single hk)]
  refine .bind (h s.pass) ?_
  intro m inner s' inside fits'
  refine .expect (by decide) fits' (fun closing hc => ended ?_)
  exact Nesting.step_closing hc inside

/-- Behind the left side, an equals sign is pending while the right side is read. -/
theorem expression_paced {budget : Nat}
    (hl : ∀ s, Paced limit (· = n.ended) n s (layer budget levels s))
    (h : ∀ s, Paced limit (·.around = n.around) n.ended.assigned s (expression budget s))
    (s : State) : Paced limit (·.around = n.around) n s (expression (budget + 1) s) := by
  rw [expression]
  refine .bind (hl s) ?_
  rintro m left s₁ rfl fits
  refine .accept? (fun _ _ _ => fits) (fun sign hk => ?_) (.value fits rfl)
  rw [Nesting.step_equal (List.mem_singleton.mp hk)]
  refine .bind (h s₁.pass) ?_
  intro m right s₂ inside fits'
  cases left with
  | var name => exact .value fits' inside
  | literal | group | unary | binary | assign | misfit =>
    exact .ok (step_note s₂ sign .invalidTarget) (Nesting.fits_nil.mpr fits') inside

/-- **The parser keeps pace with what is pending.** Reading an expression has as much of the limit
left as is not pending, the frames down to an operand included. -/
theorem read_paced (limit budget : Nat) : ∀ (c : Category) (n : Nesting) (s : State),
    n.Begins c → budget + n.frames = limit + c.frames →
    Paced limit (n.Ends c) n s (c.read budget s) := by
  induction budget with
  | zero =>
    intro c n s _ room
    -- with nothing of the budget left, more is pending than the limit
    have pos : 0 < c.frames := by cases c <;> decide
    rw [c.read_zero, refuse_eq]
    exact .deep (step_note s _ _) (by show limit < n.frames; omega)
  | succ budget ih =>
    -- each function calls others with one less, and with what it leaves pending in `n`
    intro c n s ⟨turn, idle⟩ room
    cases c with
    | assignment =>
      have idle : n.here.operators = 0 := idle (.inr rfl)
      have more := Nesting.frames_assigned idle
      refine expression_paced (fun s => ih .equality n s ⟨turn, fun _ => idle⟩ ?_)
        (fun s => ih .assignment n.ended.assigned s ⟨rfl, fun _ => rfl⟩ ?_) s
      · simp only [Category.frames] at room ⊢
        omega
      · simp only [Category.frames] at room ⊢
        omega
    | unary =>
      have more := Nesting.frames_prefixed n
      refine unary_paced turn
        (fun s => ih .unary n.prefixed s ⟨rfl, by simp [Category.operators]⟩ ?_)
        (fun s => ih .primary n s ⟨turn, by simp [Category.operators]⟩ ?_) s
      · simp only [Category.frames] at room ⊢
        omega
      · simp only [Category.frames] at room ⊢
        omega
    | primary =>
      have more := Nesting.frames_opened n
      have fits : n.frames ≤ limit := by
        simp only [Category.frames] at room
        omega
      refine primary_paced turn fits
        (fun s => ih .assignment n.opened s ⟨rfl, fun _ => rfl⟩ ?_) s
      simp only [Category.frames] at room ⊢
      omega
    | equality | comparison | term | factor =>
      have idle : n.here.operators = 0 := idle (.inl (by decide))
      refine level_paced rfl (by decide) turn idle
        (fun s => ih _ n s ⟨turn, fun _ => idle⟩ ?_) s
      simp only [Category.frames] at room ⊢
      omega

/-! ## §3 Statements -/

variable {budget : Nat}

/-- An expression as a whole has the whole budget. -/
theorem expression_from_start (budget : Nat) (s : State) :
    Paced budget (·.around = []) .start s (expression budget s) :=
  read_paced budget budget .assignment .start s ⟨rfl, fun _ => rfl⟩ rfl

/-- A semicolon ends whatever is pending. -/
theorem stop_paced {c : Complaint} {a : α} (other : c ≠ .nestingTooDeep) (enough : 7 ≤ budget)
    (fits : n.frames ≤ budget) (s : State) :
    Paced budget (· = .start) n s ((do let _ ← expect .semicolon c; pure a : Action α) s) := by
  refine .expect other fits fun t isStop => ?_
  rw [n.step_stop isStop]
  exact .value enough rfl

theorem varStatement_paced (enough : 7 ≤ budget) (s : State) :
    Paced budget (· = .start) .header s (varStatement budget s) := by
  rw [varStatement]
  refine .expect (by decide) enough fun name isName => ?_
  have named : Nesting.header.step name = .header := by rw [Nesting.step, isName]; rfl
  rw [named]
  refine .accept? (fun _ _ _ => enough) (fun sign hk => ?_) ?_
  · have begun : Nesting.header.step sign = .start := by
      rw [Nesting.step, List.mem_singleton.mp hk]
      rfl
    rw [begun]
    show Paced _ _ _ _ (((some <$> expression budget) >>= fun initial =>
      expect .semicolon .unfinishedVar >>= fun _ => pure (Stmt.var name initial)) _)
    rw [bind_map_left]
    exact .bind (expression_from_start budget _) fun _ fits => stop_paced (by decide) enough fits _
  · exact stop_paced (n := .header) (by decide) enough enough s.pass

/-- A statement begins and ends with nothing pending. -/
theorem attempt_paced (enough : 7 ≤ budget) (s : State) :
    Paced budget (· = .start) .start s (attempt budget s) := by
  rw [attempt]
  refine .accept? (fun _ _ _ => enough) (fun word hk => ?_) ?_
  · have begun : Nesting.start.step word = .header := by
      rw [Nesting.step, List.mem_singleton.mp hk]
    rw [begun]
    exact varStatement_paced enough s.pass
  show Paced _ _ _ _ (statement budget s)
  rw [statement]
  refine .accept? (fun _ _ _ => enough) (fun word hk => ?_) ?_
  · have begun : Nesting.start.step word = .start := by
      rw [Nesting.step, List.mem_singleton.mp hk]
    rw [begun]
    exact .bind (expression_from_start budget _) fun _ fits => stop_paced (by decide) enough fits _
  · exact .bind (expression_from_start budget _) fun _ fits => stop_paced (by decide) enough fits _

/-! ## §4 Programs -/

/-- No diagnostic says that nesting is too deep. -/
def Shallow (ds : List Diagnostic) : Prop := ∀ d ∈ ds, d.complaint ≠ .nestingTooDeep

theorem shallow_misplaced (signs : List Token) : Shallow (misplaced signs) := by
  intro d hd
  obtain ⟨t, -, rfl⟩ := List.mem_map.mp hd
  exact fun h => nomatch h

/-- From tokens that fit the budget, a declaration reports no nesting and leaves tokens that fit. -/
theorem declaration_of_fits (fits : Fits budget .start s.cursor.ahead) :
    ∃ entry s' ds, declaration budget s = .ok entry s' ∧ s'.diagnostics = s.diagnostics ++ ds ∧
      Shallow ds ∧ Fits budget .start s'.cursor.ahead := by
  have paced := attempt_paced fits.frames_le s
  have ends := attempt_ends budget s
  rw [declaration_eq]
  generalize attempt budget s = r at paced ends
  cases ends with
  | @ok _ signs stmt s' _ noted =>
    cases paced with
    | ok step _ ends =>
      rw [step.ahead, Nesting.fits_append, ends] at fits
      exact ⟨_, _, _, rfl, noted.diagnostics, shallow_misplaced signs, fits.2⟩
  | @error ts signs c s' _ _ noted =>
    have other : c ≠ .nestingTooDeep := by
      cases paced with
      | deep step exceeds =>
        rw [step.ahead, Nesting.fits_append] at fits
        exact absurd fits.1.behind_le (by omega)
      | refused other => exact other
    rw [noted.ahead, Nesting.fits_append] at fits
    refine ⟨_, _, _, rfl, noted.diagnostics, ?_, fits.2.synchronize⟩
    intro d hd
    rcases List.mem_append.mp hd with hd | hd
    · exact shallow_misplaced signs d hd
    · rw [List.mem_singleton.mp hd]
      exact other

theorem entries_of_fits (rounds : List Token) : ∀ {s : State},
    Fits budget .start s.cursor.ahead →
    ∃ es s' ds, entries budget rounds s = .ok es s' ∧ s'.diagnostics = s.diagnostics ++ ds ∧
      Shallow ds := by
  induction rounds with
  | nil => exact fun _ => ⟨[], _, [], rfl, (List.append_nil _).symm, fun _ h => nomatch h⟩
  | cons t rounds ih =>
    intro s fits
    by_cases done : s.cursor.ahead = []
    · exact ⟨[], s, [], entries_at_end budget _ done, (List.append_nil _).symm,
        fun _ h => nomatch h⟩
    · obtain ⟨entry, s₁, ds₁, first, diag₁, shallow₁, fits₁⟩ := declaration_of_fits fits
      obtain ⟨es, s₂, ds, others, diag, shallow⟩ := ih fits₁
      refine ⟨entry :: es, s₂, ds₁ ++ ds, entries_of_declaration done first others, ?_, ?_⟩
      · rw [diag, diag₁, List.append_assoc]
      · intro d hd
        exact (List.mem_append.mp hd).elim (shallow₁ d) (shallow d)

/-- A statement that is read fits the budget and leaves nothing pending. -/
theorem Reads.fits {stmt : Stmt} (enough : 7 ≤ budget) (h : Reads budget ts stmt) :
    Fits budget .start ts ∧ Nesting.behind .start ts = .start := by
  have step : Step ⟨.start ts default, []⟩ ts [] ⟨⟨ts.reverse, [], default⟩, []⟩ :=
    ⟨(List.append_nil _).symm, (List.append_nil _).symm, rfl, rfl⟩
  have paced := attempt_paced enough ⟨.start ts default, []⟩
  rw [h.2 _ _ step] at paced
  cases paced with
  | @ok us _ _ _ step' fits ends =>
    have same : ts = us := step'.ahead.trans (List.append_nil us)
    rw [same]
    exact ⟨fits, ends⟩

theorem fits_of_reads (enough : 7 ≤ budget) (parts : List (List Token × Stmt))
    (reads : ∀ part ∈ parts, Reads budget part.1 part.2) :
    Fits budget .start (parts.flatMap (·.1)) := by
  induction parts with
  | nil => exact Nesting.fits_nil (n := .start).mpr enough
  | cons part parts ih =>
    obtain ⟨fits, ends⟩ := (reads part List.mem_cons_self).fits enough
    rw [List.flatMap_cons, Nesting.fits_append, ends]
    exact ⟨fits, ih fun part h => reads part (List.mem_cons_of_mem _ h)⟩

end Parser

open Scriptlet.Parser (Shallow)

namespace Lexed

open Nesting (Fits)

variable {l : Lexed} {budget : Nat}

/-- Tokens that fit the budget are read without a word about their nesting. -/
theorem shallow_of_fits (fits : Fits budget .start l.tokens) : Shallow (l.parse budget).2 := by
  obtain ⟨es, s, ds, run, diag, shallow⟩ :=
    Parser.entries_of_fits (s := ⟨.start l.tokens l.last, []⟩) l.tokens fits
  have whole : Parser.program budget ⟨.start l.tokens l.last, []⟩ = .ok es s := run
  rw [parse, whole]
  show Shallow s.diagnostics
  rw [diag]
  exact shallow

/-- What is read without a diagnostic fits the budget. -/
theorem fits_of_quiet (enough : 7 ≤ budget) (quiet : (l.parse budget).2 = []) :
    Fits budget .start l.tokens := by
  obtain ⟨es, s, ds, run, diag⟩ :=
    Parser.entries_extends budget l.tokens ⟨.start l.tokens l.last, []⟩
  have whole : Parser.program budget ⟨.start l.tokens l.last, []⟩ = .ok es s := run
  rw [parse, whole] at quiet
  obtain ⟨parts, -, tokens, reads⟩ :=
    Parser.reads_of_entries budget l.tokens run (Nat.le_refl _) quiet
  have tokens : l.tokens = parts.flatMap (·.1) := tokens
  rw [tokens]
  exact Parser.fits_of_reads enough parts reads

end Lexed

end Scriptlet
