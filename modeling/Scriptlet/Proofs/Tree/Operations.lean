/-
Scriptlet.Proofs.Tree.Operations — the cursor under any sequence of operations.

The actions of the parser can be asked for in any order and from any place, also
where no statement begins and after one that unwound. None of them goes back,
passes the end or takes a diagnostic back: each is a step over some tokens, and
where it unwinds its last diagnostic is about the token ahead (`Tidy`). That is
shown for one operation at a time (`perform_tidy`), and follows for a sequence
because steps compose (`performAll_step`).

Reading a declaration never unwinds, and it passes a token wherever one is ahead.
So reading a program comes to the end from every place.

  §1 Tidy endings.
  §2 One operation.
  §3 Sequences of operations.
-/
import Scriptlet.Tree.Operation
import Scriptlet.Proofs.Token.Munch
import Scriptlet.Proofs.Tree.Recognition

namespace Scriptlet

open Token (Kind)

namespace Parser

variable {α β : Type} {p : Action α} {s s' : State} {budget : Nat}

/-! ## §1 Tidy endings -/

theorem map_ok {f : α → β} {a : α} (h : p s = .ok a s') : (f <$> p) s = .ok (f a) s' := by
  rw [map_eq_pure_bind, bind_ok h]
  rfl

theorem map_error {f : α → β} {c : Complaint} (h : p s = .error c s') :
    (f <$> p) s = .error c s' := by
  rw [map_eq_pure_bind, bind_error h]

/-- How an operation from `s` ends: some tokens are passed and some diagnostics are added, and what
unwinds adds one about the token ahead last. -/
inductive Tidy (s : State) : Result α → Prop where
  | ok {ts : List Token} {ds : List Diagnostic} {a : α} {s' : State} (step : Step s ts ds s') :
      Tidy s (.ok a s')
  | error {ts : List Token} {ds : List Diagnostic} {c : Complaint} {s' : State}
      (step : Step s ts (ds ++ [.atToken s'.cursor.peek c]) s') : Tidy s (.error c s')

namespace Tidy

theorem of_ends {G : List Token → α → List Token → Prop} {r : Result α} (h : Ends G s r) :
    Tidy s r := by
  cases h with
  | ok _ step => exact .ok step
  | error _ _ step => exact .error step

/-- What is made of a result is as tidy as the result. -/
theorem bind_pure (f : α → β) (h : Tidy s (p s)) : Tidy s ((p >>= fun a => pure (f a)) s) := by
  generalize hr : p s = r at h
  cases h with
  | ok step =>
    rw [bind_ok hr]
    exact .ok step
  | error step =>
    rw [bind_error hr]
    exact .error step

theorem map (f : α → β) (h : Tidy s (p s)) : Tidy s ((f <$> p) s) := by
  rw [map_eq_pure_bind]
  exact bind_pure f h

end Tidy

/-! ## §2 One operation -/

theorem advance_tidy (s : State) : Tidy s (advance s) := by
  have moved : advance s = .ok s.pass.cursor.previous s.pass := rfl
  rw [moved]
  cases h : s.cursor.ahead with
  | nil =>
    have stays : s.pass = s := by
      obtain ⟨⟨passed, ahead, last⟩, diagnostics⟩ := s
      subst h
      rfl
    rw [stays]
    exact .ok (.refl s)
  | cons t rest => exact .ok (step_pass h)

theorem accept?_tidy (kinds : List Kind) (s : State) : Tidy s (accept? kinds s) := by
  rcases accept?_cases kinds s with ⟨t, rest, head, -, h⟩ | ⟨-, h⟩ <;> rw [h]
  · exact .ok (step_pass head)
  · exact .ok (.refl s)

theorem expect_tidy (kind : Kind) (c : Complaint) (s : State) : Tidy s (expect kind c s) := by
  rcases expect_cases kind c s with ⟨t, rest, head, -, h⟩ | h <;> rw [h]
  · exact .ok (step_pass head)
  · have step : Step s [] ([] ++ [.atToken s.cursor.peek c]) (s.note s.cursor.peek c) :=
      step_note s s.cursor.peek c
    exact .error step

/-- Whatever is asked for, the cursor only goes forward and diagnostics are only added. -/
theorem perform_tidy (budget : Nat) (op : Operation) (s : State) :
    Tidy s (perform budget op s) := by
  have still : ∀ {α : Type} (a : α), Tidy s (.ok a s) := fun _ => .ok (.refl s)
  cases op with
  | peek => exact .map _ (still _)
  | previous => exact .map _ (still _)
  | atEnd => exact .map _ (still _)
  | check kind => exact .map _ (still _)
  | advance => exact .map _ (advance_tidy s)
  | accept kinds => exact .bind_pure _ (accept?_tidy kinds s)
  | expect kind c => exact .map _ (expect_tidy kind c s)
  | report t c => exact .ok (step_note s t c)
  | synchronize =>
    obtain ⟨ts, step, -⟩ := step_synchronize s
    exact .ok step
  | expression => exact .map _ (.of_ends (read_ends budget .assignment s))
  | declaration =>
    obtain ⟨entry, s', ts, ds, read, step, -⟩ := declaration_step budget s
    exact .map _ (read ▸ .ok step)
  | statement => exact .bind_pure _ (.of_ends (statement_ends budget s))
  | varStatement => exact .bind_pure _ (.of_ends (varStatement_ends budget s))
  | printStatement => exact .bind_pure _ (.of_ends (printStatement_ends budget s))
  | expressionStatement => exact .bind_pure _ (.of_ends (expressionStatement_ends budget s))
  | program =>
    obtain ⟨es, s', ts, ds, read, step, -⟩ := entries_step budget s.cursor.ahead s
    have read : program budget s = .ok es s' := read
    exact .map _ (read ▸ .ok step)

/-! ### What single operations do besides -/

theorem performFrom_of_ok {op : Operation} {reply : Reply}
    (h : perform budget op s = .ok reply s') : performFrom budget s op = (.ok reply, s') := by
  rw [performFrom, h]

theorem performFrom_of_error {op : Operation} {c : Complaint}
    (h : perform budget op s = .error c s') : performFrom budget s op = (.error c, s') := by
  rw [performFrom, h]

theorem performFrom_step (budget : Nat) (op : Operation) (s : State) :
    ∃ ts ds, Step s ts ds (performFrom budget s op).2 := by
  have tidy := perform_tidy budget op s
  generalize h : perform budget op s = r at tidy
  cases tidy with
  | ok step =>
    rw [performFrom_of_ok h]
    exact ⟨_, _, step⟩
  | error step =>
    rw [performFrom_of_error h]
    exact ⟨_, _, step⟩

/-- What unwinds has reported why, about the token ahead. -/
theorem performFrom_error {op : Operation} {c : Complaint}
    (unwound : (performFrom budget s op).1 = .error c) :
    ∃ ds, (performFrom budget s op).2.diagnostics =
      s.diagnostics ++ ds ++ [.atToken (performFrom budget s op).2.cursor.peek c] := by
  have tidy := perform_tidy budget op s
  generalize h : perform budget op s = r at tidy
  cases tidy with
  | ok step =>
    rw [performFrom_of_ok h] at unwound
    cases unwound
  | @error ts ds c' s' step =>
    rw [performFrom_of_error h] at unwound ⊢
    cases unwound
    exact ⟨ds, by rw [step.diagnostics, List.append_assoc]⟩

/-- A demand that is not met leaves the cursor where it is. -/
theorem performFrom_expect_error {kind : Kind} {c c' : Complaint}
    (unwound : (performFrom budget s (.expect kind c)).1 = .error c') :
    (performFrom budget s (.expect kind c)).2.cursor = s.cursor := by
  rcases expect_cases kind c s with ⟨t, rest, -, -, h⟩ | h
  · have met : perform budget (.expect kind c) s = .ok (.token t) s.pass := map_ok h
    rw [performFrom_of_ok met] at unwound
    cases unwound
  · have unmet : perform budget (.expect kind c) s = .error c (s.note s.cursor.peek c) :=
      map_error h
    rw [performFrom_of_error unmet]
    rfl

theorem performFrom_declaration (budget : Nat) (s : State) :
    ∃ entry ts ds, (performFrom budget s .declaration).1 = .ok (.entry entry) ∧
      Step s ts ds (performFrom budget s .declaration).2 ∧ (s.cursor.ahead ≠ [] → ts ≠ []) := by
  obtain ⟨entry, s', ts, ds, read, step, passes⟩ := declaration_step budget s
  have done : perform budget .declaration s = .ok (.entry entry) s' := map_ok read
  rw [performFrom_of_ok done]
  exact ⟨entry, ts, ds, rfl, step, passes⟩

theorem performFrom_program (budget : Nat) (s : State) :
    (∃ entries, (performFrom budget s .program).1 = .ok (.program entries)) ∧
      (performFrom budget s .program).2.cursor.ahead = [] := by
  obtain ⟨entries, s', ts, ds, read, -, ends⟩ := entries_step budget s.cursor.ahead s
  have read : program budget s = .ok entries s' := read
  have done : perform budget .program s = .ok (.program entries) s' := map_ok read
  rw [performFrom_of_ok done]
  exact ⟨⟨entries, rfl⟩, ends (Nat.le_refl _)⟩

/-- What an operation keeps that leads from `s`, where the cursor stands at position `p`, to a state
where it stands at `q`. -/
structure Orderly (l : Lexed) (op : Operation) (s : State) (p : Nat)
    (outcome : Except Complaint Reply × State) (q : Nat) : Prop where
  /-- The cursor stands at a token or at the end. -/
  place : outcome.2.cursor = l.cursorAt q
  inside : q ≤ l.tokens.length
  /-- It has not gone back. -/
  onward : p ≤ q
  /-- No diagnostic is taken back or changed. -/
  added : s.diagnostics <+: outcome.2.diagnostics
  /-- What unwinds has reported why, last of all and about the token at the cursor. -/
  unwinding : ∀ c, outcome.1 = .error c →
    ∃ ds, outcome.2.diagnostics = s.diagnostics ++ ds ++ [.atToken (l.tokenAt q) c]
  /-- A demand that is not met moves nothing. -/
  demand : ∀ kind c c', op = .expect kind c → outcome.1 = .error c' → outcome.2.cursor = s.cursor
  /-- A declaration gives an entry, and passes a token unless the cursor is at the end. -/
  declaration : op = .declaration →
    (∃ entry, outcome.1 = .ok (.entry entry)) ∧ (p < l.tokens.length → p < q)
  /-- A program gives entries and goes to the end. -/
  program : op = .program →
    (∃ entries, outcome.1 = .ok (.program entries)) ∧ q = l.tokens.length

theorem performFrom_orderly {l : Lexed} {n : Nat} (budget : Nat) (op : Operation)
    (hs : s.cursor = l.cursorAt n) (hn : n ≤ l.tokens.length) :
    ∃ q, Orderly l op s n (performFrom budget s op) q := by
  obtain ⟨ts, ds, step⟩ := performFrom_step budget op s
  have place := Lexed.cursorAt_of_step hs step
  have inside := Lexed.length_of_step hs hn step
  refine ⟨n + ts.length, place, inside, Nat.le_add_right _ _, ⟨ds, step.diagnostics.symm⟩, ?_, ?_,
    ?_, ?_⟩
  · intro c unwound
    rw [← Lexed.peek_cursorAt, ← place]
    exact performFrom_error unwound
  · rintro kind c c' rfl unwound
    exact performFrom_expect_error unwound
  · rintro rfl
    obtain ⟨entry, us, es, done, step', passes⟩ := performFrom_declaration budget s
    refine ⟨⟨entry, done⟩, fun before => ?_⟩
    have more : s.cursor.ahead ≠ [] := by
      rw [hs]
      exact fun none => absurd (List.drop_eq_nil_iff.mp none) (by omega)
    have same : ts = us := List.append_cancel_right (step.ahead.symm.trans step'.ahead)
    have pos := List.length_pos_iff.mpr (same ▸ passes more)
    omega
  · rintro rfl
    obtain ⟨done, none⟩ := performFrom_program budget s
    refine ⟨done, ?_⟩
    rw [place] at none
    have le : l.tokens.length ≤ n + ts.length := List.drop_eq_nil_iff.mp none
    omega

/-! ## §3 Sequences of operations -/

/-- The state that operations lead to one after another, whether they end or unwind. -/
def performAll (budget : Nat) (s : State) (ops : List Operation) : State :=
  ops.foldl (fun s op => (performFrom budget s op).2) s

theorem performAll_step (budget : Nat) (ops : List Operation) : ∀ s : State,
    ∃ ts ds, Step s ts ds (performAll budget s ops) := by
  induction ops with
  | nil => exact fun s => ⟨[], [], .refl s⟩
  | cons op ops ih =>
    intro s
    obtain ⟨ts, ds, step⟩ := performFrom_step budget op s
    obtain ⟨us, es, step'⟩ := ih (performFrom budget s op).2
    exact ⟨ts ++ us, ds ++ es, step.trans step'⟩

end Parser

/-- **The cursor keeps its place under all operations.** Whatever is asked of the parser, one
operation after another, the cursor stands at a token of the source or at its end and never goes
back, the mark of the end is never passed, and diagnostics are only added. Each operation that can
be asked for next is orderly: it says why it unwinds and where, a demand that is not met moves
nothing, a declaration passes a token unless the cursor is at the end, and a program goes there. -/
theorem Parser.operations_keep_order (source : Text) (budget : Nat) (ops more : List Operation) :
    let l := source.lex
    let s := performAll budget ⟨.start l.tokens l.last, []⟩ ops
    let s' := performAll budget ⟨.start l.tokens l.last, []⟩ (ops ++ more)
    ∃ p q, s.cursor = l.cursorAt p ∧ s'.cursor = l.cursorAt q ∧ p ≤ q ∧ q ≤ l.tokens.length ∧
      l.all[l.tokens.length]? = some l.last ∧ l.last.kind = .finish ∧
      (∀ t ∈ s'.cursor.passed, t.kind ≠ .finish) ∧ s.diagnostics <+: s'.diagnostics ∧
      ∀ op, ∃ r, Orderly l op s p (performFrom budget s op) r := by
  intro l s s'
  obtain ⟨ts, ds, step⟩ := performAll_step budget ops ⟨.start l.tokens l.last, []⟩
  obtain ⟨us, es, step'⟩ := performAll_step budget more s
  have joined : performAll budget s more = s' := List.foldl_append.symm
  rw [joined] at step'
  have begun : (⟨.start l.tokens l.last, []⟩ : State).cursor = l.cursorAt 0 := rfl
  have place := Lexed.cursorAt_of_step begun step
  have inside := Lexed.length_of_step begun (Nat.zero_le _) step
  have place' := Lexed.cursorAt_of_step place step'
  refine ⟨_, _, place, place', Nat.le_add_right _ _, Lexed.length_of_step place inside step',
    by simp [Lexed.all], source.kind_last_lex, ?_, ⟨es, step'.diagnostics.symm⟩,
    fun op => performFrom_orderly budget op place inside⟩
  intro t passed
  rw [place'] at passed
  exact Text.kind_ne_finish_of_mem_lex (List.mem_of_mem_take (List.mem_reverse.mp passed))

end Scriptlet
