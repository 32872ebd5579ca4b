/-
Scriptlet.Proofs.Tree.Steps — what the actions of the parser do to its state.

An action passes tokens and reports diagnostics. `Step s ts ds s'` says that on
the way from `s` to `s'` it passed exactly `ts` and reported exactly `ds`; steps
compose, and a composed step can be taken apart. Each of the small actions has an
equation here, and the larger ones are told from these equations alone.

Two forms of statement are used about larger actions. `Ends G s r` says how an
action that started in `s` may end: with a result that `G` allows for the tokens
passed, or by unwinding with a complaint about the token ahead. `Agrees r r'` says
that `r` is `r'`, unless the nesting was too deep for `r`.

  §1 Results.
  §2 Steps.
  §3 The small actions.
  §4 How an action may end.
  §5 Agreement up to the depth of nesting.
-/
import Scriptlet.Tree.Parser

namespace Scriptlet.Parser

open Token (Kind)

/-! ## §1 Results -/

/-- How an action ends: with a value or a complaint, and always with a state. -/
abbrev Result := EStateM.Result Complaint State

variable {α β : Type} {p : Action α} {f : α → Action β} {s s' s'' : State}

theorem bind_ok {a : α} (h : p s = .ok a s') : (p >>= f) s = f a s' := by
  show EStateM.bind p f s = f a s'
  simp only [EStateM.bind, h]

theorem bind_error {c : Complaint} (h : p s = .error c s') : (p >>= f) s = .error c s' := by
  show EStateM.bind p f s = .error c s'
  simp only [EStateM.bind, h]

/-! ## §2 Steps -/

/-- From `s` to `s'` the tokens `ts` are passed and the diagnostics `ds` are reported. -/
structure Step (s : State) (ts : List Token) (ds : List Diagnostic) (s' : State) : Prop where
  ahead : s.cursor.ahead = ts ++ s'.cursor.ahead
  passed : s'.cursor.passed = ts.reverse ++ s.cursor.passed
  last : s'.cursor.last = s.cursor.last
  diagnostics : s'.diagnostics = s.diagnostics ++ ds

namespace Step

variable {ts us : List Token} {ds es : List Diagnostic}

theorem refl (s : State) : Step s [] [] s := ⟨rfl, rfl, rfl, (List.append_nil _).symm⟩

theorem trans (h : Step s ts ds s') (k : Step s' us es s'') : Step s (ts ++ us) (ds ++ es) s'' where
  ahead := by rw [h.ahead, k.ahead, List.append_assoc]
  passed := by rw [k.passed, h.passed, List.reverse_append, List.append_assoc]
  last := by rw [k.last, h.last]
  diagnostics := by rw [k.diagnostics, h.diagnostics, List.append_assoc]

/-- A step over two slices stops between them. -/
theorem split (h : Step s (ts ++ us) (ds ++ es) s'') :
    ∃ s', Step s ts ds s' ∧ Step s' us es s'' := by
  refine ⟨⟨⟨ts.reverse ++ s.cursor.passed, us ++ s''.cursor.ahead, s.cursor.last⟩,
    s.diagnostics ++ ds⟩, ⟨?_, rfl, rfl, rfl⟩, ⟨rfl, ?_, h.last, ?_⟩⟩
  · rw [h.ahead, List.append_assoc]
  · rw [h.passed, List.reverse_append, List.append_assoc]
  · rw [h.diagnostics, List.append_assoc]

/-- Where a step leads to is settled by where it starts. -/
theorem unique (h : Step s ts ds s') (k : Step s ts ds s'') : s' = s'' := by
  obtain ⟨⟨passed, ahead, last⟩, diagnostics⟩ := s'
  obtain ⟨⟨passed', ahead', last'⟩, diagnostics'⟩ := s''
  have ha : ahead = ahead' := List.append_cancel_left (h.ahead.symm.trans k.ahead)
  have hp : passed = passed' := h.passed.trans k.passed.symm
  have hl : last = last' := h.last.trans k.last.symm
  have hd : diagnostics = diagnostics' := h.diagnostics.trans k.diagnostics.symm
  rw [ha, hp, hl, hd]

theorem length_le (h : Step s ts ds s') : s'.cursor.ahead.length ≤ s.cursor.ahead.length := by
  rw [h.ahead, List.length_append]
  omega

end Step

/-- The state behind the next token. -/
def State.pass (s : State) : State := { s with cursor := s.cursor.advance }

/-- The state with one more complaint about a token. -/
def State.note (s : State) (t : Token) (c : Complaint) : State :=
  { s with diagnostics := s.diagnostics ++ [.atToken t c] }

theorem step_pass {t : Token} {rest : List Token} (h : s.cursor.ahead = t :: rest) :
    Step s [t] [] s.pass := by
  obtain ⟨⟨passed, ahead, last⟩, diagnostics⟩ := s
  subst h
  exact ⟨rfl, rfl, rfl, (List.append_nil _).symm⟩

theorem ahead_pass {t : Token} {rest : List Token} (h : s.cursor.ahead = t :: rest) :
    s.pass.cursor.ahead = rest := by
  have hs := (step_pass h).ahead
  rw [h] at hs
  exact (List.cons.inj hs).2.symm

theorem step_note (s : State) (t : Token) (c : Complaint) :
    Step s [] [.atToken t c] (s.note t c) :=
  ⟨rfl, rfl, rfl, rfl⟩

/-- A step over some tokens begins by passing the first of them. -/
theorem Step.tail {t : Token} {ts : List Token} {ds : List Diagnostic}
    (h : Step s (t :: ts) ds s') : Step s.pass ts ds s' := by
  have h' : Step s ([t] ++ ts) ([] ++ ds) s' := h
  obtain ⟨u, hu, hrest⟩ := h'.split
  rw [(step_pass h.ahead).unique hu]
  exact hrest

/-! ## §3 The small actions -/

theorem sees_iff {t : Token} {rest : List Token} (h : s.cursor.ahead = t :: rest) (k : Kind) :
    s.cursor.sees k = true ↔ t.kind = k := by
  unfold Cursor.sees
  rw [h]
  exact beq_iff_eq

theorem sees_nil (h : s.cursor.ahead = []) (k : Kind) : s.cursor.sees k = false := by
  unfold Cursor.sees
  rw [h]

theorem accept?_eq (kinds : List Kind) (s : State) :
    accept? kinds s =
      if kinds.any s.cursor.sees then .ok (some s.cursor.advance.previous) s.pass
      else .ok none s := by
  have hg : (get : Action State) s = .ok s s := rfl
  rw [accept?, bind_ok hg]
  split <;> rfl

theorem any_sees {t : Token} {rest : List Token} (h : s.cursor.ahead = t :: rest)
    (kinds : List Kind) : kinds.any s.cursor.sees = true ↔ t.kind ∈ kinds := by
  rw [List.any_eq_true]
  constructor
  · rintro ⟨k, hk, hs⟩
    rw [(sees_iff h k).mp hs]
    exact hk
  · intro hk
    exact ⟨_, hk, (sees_iff h _).mpr rfl⟩

/-- A token of one of the kinds asked for is passed. -/
theorem accept?_of_mem {kinds : List Kind} {t : Token} {rest : List Token}
    (h : s.cursor.ahead = t :: rest) (hk : t.kind ∈ kinds) :
    accept? kinds s = .ok (some t) s.pass := by
  rw [accept?_eq, if_pos ((any_sees h kinds).mpr hk)]
  obtain ⟨⟨passed, ahead, last⟩, diagnostics⟩ := s
  subst h
  rfl

/-- A token of another kind stays where it is. -/
theorem accept?_of_not_sees {kinds : List Kind} (h : ∀ k ∈ kinds, s.cursor.sees k = false) :
    accept? kinds s = .ok none s := by
  have hn : ¬ kinds.any s.cursor.sees = true := by
    rw [List.any_eq_true]
    rintro ⟨k, hk, hs⟩
    rw [h k hk] at hs
    exact Bool.noConfusion hs
  rw [accept?_eq, if_neg hn]

theorem not_sees_of_head {kinds : List Kind} {t : Token} {rest : List Token}
    (h : s.cursor.ahead = t :: rest) (hk : t.kind ∉ kinds) :
    ∀ k ∈ kinds, s.cursor.sees k = false := by
  intro k hm
  rw [Bool.eq_false_iff]
  intro hs
  rw [← (sees_iff h k).mp hs] at hm
  exact hk hm

/-- Asking for a token passes it or leaves it. -/
theorem accept?_cases (kinds : List Kind) (s : State) :
    (∃ t rest, s.cursor.ahead = t :: rest ∧ t.kind ∈ kinds ∧
      accept? kinds s = .ok (some t) s.pass) ∨
    ((∀ k ∈ kinds, s.cursor.sees k = false) ∧ accept? kinds s = .ok none s) := by
  cases h : s.cursor.ahead with
  | nil =>
    have hn : ∀ k ∈ kinds, s.cursor.sees k = false := fun k _ => sees_nil h k
    exact .inr ⟨hn, accept?_of_not_sees hn⟩
  | cons t rest =>
    by_cases hk : t.kind ∈ kinds
    · exact .inl ⟨t, rest, rfl, hk, accept?_of_mem h hk⟩
    · have hn := not_sees_of_head h hk
      exact .inr ⟨hn, accept?_of_not_sees hn⟩

theorem report_eq (t : Token) (c : Complaint) (s : State) : report t c s = .ok () (s.note t c) :=
  rfl

theorem refuse_eq (c : Complaint) (s : State) :
    (refuse c : Action α) s = .error c (s.note s.cursor.peek c) :=
  rfl

theorem expect_of_kind {kind : Kind} {c : Complaint} {t : Token} {rest : List Token}
    (h : s.cursor.ahead = t :: rest) (hk : t.kind = kind) : expect kind c s = .ok t s.pass := by
  have hs : check kind s = .ok true s := by
    show EStateM.Result.ok (s.cursor.sees kind) s = _
    rw [(sees_iff h kind).mpr hk]
  rw [expect, bind_ok hs, if_pos rfl]
  obtain ⟨⟨passed, ahead, last⟩, diagnostics⟩ := s
  subst h
  rfl

theorem expect_of_not_sees {kind : Kind} {c : Complaint} (h : s.cursor.sees kind = false) :
    expect kind c s = .error c (s.note s.cursor.peek c) := by
  have hs : check kind s = .ok false s := by
    show EStateM.Result.ok (s.cursor.sees kind) s = _
    rw [h]
  rw [expect, bind_ok hs, if_neg Bool.false_ne_true]
  rfl

/-- A demand for a token passes it or unwinds. -/
theorem expect_cases (kind : Kind) (c : Complaint) (s : State) :
    (∃ t rest, s.cursor.ahead = t :: rest ∧ t.kind = kind ∧ expect kind c s = .ok t s.pass) ∨
    expect kind c s = .error c (s.note s.cursor.peek c) := by
  cases h : s.cursor.ahead with
  | nil => exact .inr (expect_of_not_sees (sees_nil h kind))
  | cons t rest =>
    by_cases hk : t.kind = kind
    · exact .inl ⟨t, rest, rfl, hk, expect_of_kind h hk⟩
    · refine .inr (expect_of_not_sees ?_)
      rw [Bool.eq_false_iff]
      exact fun hs => hk ((sees_iff h kind).mp hs)

/-- Skipping passes some of the tokens ahead and keeps the others. -/
theorem exists_skipFrom (last : Token) (ahead : List Token) : ∀ passed : List Token,
    ∃ ts rest, ahead = ts ++ rest ∧
      Cursor.skipFrom last passed ahead = ⟨ts.reverse ++ passed, rest, last⟩ := by
  induction ahead with
  | nil => exact fun passed => ⟨[], [], rfl, rfl⟩
  | cons t ahead ih =>
    intro passed
    rw [Cursor.skipFrom]
    split
    · exact ⟨[], t :: ahead, rfl, rfl⟩
    · obtain ⟨ts, rest, rfl, skipped⟩ := ih (t :: passed)
      refine ⟨t :: ts, rest, rfl, ?_⟩
      rw [skipped, List.reverse_cons, List.append_assoc]
      rfl

/-- Skipping to a boundary passes at least the token ahead. -/
theorem step_synchronize (s : State) :
    ∃ ts, Step s ts [] { s with cursor := s.cursor.synchronize } ∧
      (s.cursor.ahead ≠ [] → ts ≠ []) := by
  obtain ⟨⟨passed, ahead, last⟩, diagnostics⟩ := s
  cases ahead with
  | nil => exact ⟨[], ⟨rfl, rfl, rfl, (List.append_nil _).symm⟩, fun more => absurd rfl more⟩
  | cons t ahead =>
    obtain ⟨ts, rest, rfl, skipped⟩ := exists_skipFrom last ahead (t :: passed)
    have moved : (⟨passed, t :: (ts ++ rest), last⟩ : Cursor).synchronize =
        ⟨ts.reverse ++ t :: passed, rest, last⟩ := skipped
    refine ⟨t :: ts, ?_, fun _ => List.cons_ne_nil t ts⟩
    rw [moved]
    exact ⟨rfl, by simp, rfl, (List.append_nil _).symm⟩

/-! ## §4 How an action may end -/

/-- The diagnostics for equals signs that have no variable before them. -/
def misplaced (signs : List Token) : List Diagnostic := signs.map (.atToken · .invalidTarget)

theorem misplaced_append (signs more : List Token) :
    misplaced (signs ++ more) = misplaced signs ++ misplaced more :=
  List.map_append

/-- Tokens inside a statement, with some of the equals signs among them. -/
structure Inside (ts signs : List Token) : Prop where
  noStop : ∀ t ∈ ts, t.kind ≠ .semicolon
  signs : ∀ t ∈ signs, t ∈ ts ∧ t.kind = .equal

theorem Inside.nil : Inside [] [] := ⟨by simp, by simp⟩

theorem Inside.append {ts us signs more : List Token} (h : Inside ts signs)
    (k : Inside us more) : Inside (ts ++ us) (signs ++ more) := by
  constructor
  · intro t ht
    rcases List.mem_append.mp ht with ht | ht
    · exact h.noStop t ht
    · exact k.noStop t ht
  · intro t ht
    rcases List.mem_append.mp ht with ht | ht
    · exact ⟨List.mem_append_left _ (h.signs t ht).1, (h.signs t ht).2⟩
    · exact ⟨List.mem_append_right _ (k.signs t ht).1, (k.signs t ht).2⟩

theorem Inside.single {t : Token} (h : t.kind ≠ .semicolon) : Inside [t] [] :=
  ⟨by simpa using h, by simp⟩

/-- How an action that starts in `s` may end: with a value that `G` allows for the tokens passed and
the misplaced signs reported, or, still inside a statement, with one more complaint, which is about
the token ahead and not about a sign. -/
inductive Ends (G : List Token → α → List Token → Prop) (s : State) : Result α → Prop where
  | ok {ts signs : List Token} {a : α} {s' : State} (allowed : G ts a signs)
      (step : Step s ts (misplaced signs) s') : Ends G s (.ok a s')
  | error {ts signs : List Token} {c : Complaint} {s' : State} (inside : Inside ts signs)
      (unwinding : c ≠ .invalidTarget)
      (step : Step s ts (misplaced signs ++ [.atToken s'.cursor.peek c]) s') :
      Ends G s (.error c s')

namespace Ends

variable {G : List Token → α → List Token → Prop} {H : List Token → β → List Token → Prop}
variable {ts signs : List Token}

/-- What follows a step ends as the whole does. -/
theorem after {r : Result α} (step : Step s ts (misplaced signs) s') (inside : Inside ts signs)
    (h : Ends (fun us a more => G (ts ++ us) a (signs ++ more)) s' r) : Ends G s r := by
  cases h with
  | ok allowed step' =>
    refine .ok allowed ?_
    rw [misplaced_append]
    exact step.trans step'
  | error inside' unwinding step' =>
    refine .error (inside.append inside') unwinding ?_
    rw [misplaced_append, List.append_assoc]
    exact step.trans step'

theorem pass {r : Result α} {t : Token} {rest : List Token} (head : s.cursor.ahead = t :: rest)
    (noStop : t.kind ≠ .semicolon) (h : Ends (fun us a signs => G (t :: us) a signs) s.pass r) :
    Ends G s r :=
  after (step_pass head) (.single noStop) h

theorem value {a : α} (allowed : G [] a []) : Ends G s (.ok a s) := .ok allowed (.refl s)

theorem mono {G' : List Token → α → List Token → Prop} {r : Result α} (h : Ends G s r)
    (allowed : ∀ {ts a signs}, G ts a signs → G' ts a signs) : Ends G' s r := by
  cases h with
  | ok h step => exact .ok (allowed h) step
  | error inside unwinding step => exact .error inside unwinding step

/-- An action that begins by asking for a token goes on in one of two ways. -/
theorem accept? {kinds : List Kind} {f : Option Token → Action α} (noStop : Kind.semicolon ∉ kinds)
    (found : ∀ t : Token, t.kind ∈ kinds →
      Ends (fun us a signs => G (t :: us) a signs) s.pass (f (some t) s.pass))
    (missing : Ends G s (f none s)) : Ends G s ((Parser.accept? kinds >>= f) s) := by
  rcases accept?_cases kinds s with ⟨t, rest, head, hk, h⟩ | ⟨-, h⟩
  · rw [bind_ok h]
    exact pass head (fun hs => noStop (hs ▸ hk)) (found t hk)
  · rw [bind_ok h]
    exact missing

theorem bind (h : Ends G s (p s)) (inside : ∀ {ts a signs}, G ts a signs → Inside ts signs)
    (next : ∀ {ts a signs s'}, G ts a signs →
      Ends (fun us b more => H (ts ++ us) b (signs ++ more)) s' (f a s')) :
    Ends H s ((p >>= f) s) := by
  generalize hr : p s = r at h
  cases h with
  | ok allowed step =>
    rw [bind_ok hr]
    exact after step (inside allowed) (next allowed)
  | error inside' unwinding step =>
    rw [bind_error hr]
    exact .error inside' unwinding step

theorem refuse {c : Complaint} (unwinding : c ≠ .invalidTarget) (s : State) :
    Ends G s (Parser.refuse c s) := by
  rw [refuse_eq]
  exact .error .nil unwinding (step_note s _ c)

/-- A token demanded at the end of a phrase. -/
theorem expect {kind : Kind} {c : Complaint} {a : α} (unwinding : c ≠ .invalidTarget)
    (allowed : ∀ t : Token, t.kind = kind → G [t] a []) (s : State) :
    Ends G s ((do let _ ← Parser.expect kind c; pure a : Action α) s) := by
  rcases expect_cases kind c s with ⟨t, rest, head, hk, h⟩ | h
  · rw [bind_ok h]
    exact .ok (allowed t hk) (step_pass head)
  · rw [bind_error h]
    exact .error .nil unwinding (step_note s _ c)

end Ends

/-! ## §5 Agreement up to the depth of nesting -/

/-- The first result is the second, unless the nesting was too deep. -/
def Agrees (r r' : Result α) : Prop := r = r' ∨ ∃ s', r = .error .nestingTooDeep s'

namespace Agrees

theorem refl (r : Result α) : Agrees r r := .inl rfl

theorem bind {a : α} {r : Result β} (h : Agrees (p s) (.ok a s')) (k : Agrees (f a s') r) :
    Agrees ((p >>= f) s) r := by
  rcases h with h | ⟨s₁, h⟩
  · rw [bind_ok h]
    exact k
  · exact .inr ⟨s₁, bind_error h⟩

theorem trans {r r' r'' : Result α} (h : Agrees r r') (k : Agrees r' r'') : Agrees r r'' := by
  rcases h with rfl | h
  · exact k
  · exact .inr h

end Agrees

end Scriptlet.Parser
