/-
Scriptlet.Proofs.Tree.Recovery — where a program that is refused is cut.

Reading a program never stops early: a statement that cannot be read is dropped,
and reading goes on at the next boundary between statements. The tokens are so
cut into segments, one for each entry of the program. The segment of a statement
is derived by the grammar; that of a dropped one ends at the first boundary
behind the token at which reading unwound.

One declaration gives one segment (`declaration_segment`), and the loop over
declarations lays segment to segment until nothing is ahead (`entries_segments`).

  §1 Places in a list of tokens.
  §2 Boundaries.
  §3 Segments.
  §4 One declaration.
  §5 A whole program.
-/
import Scriptlet.Proofs.Tree.Soundness

namespace Scriptlet

open Token (Kind)

/-! ## §1 Places in a list of tokens -/

namespace Lexed

/-- The cursor with the given number of tokens passed. -/
def cursorAt (l : Lexed) (q : Nat) : Cursor :=
  ⟨(l.tokens.take q).reverse, l.tokens.drop q, l.last⟩

/-- The token at a position; behind all others stands the mark of the end. -/
def tokenAt (l : Lexed) (q : Nat) : Token := l.tokens.getD q l.last

/-- The tokens from one position up to another. -/
def slice (l : Lexed) (start stop : Nat) : List Token := (l.tokens.drop start).take (stop - start)

theorem peek_cursorAt (l : Lexed) (q : Nat) : (l.cursorAt q).peek = l.tokenAt q := by
  show (l.tokens.drop q).headD l.last = l.tokens.getD q l.last
  rw [List.headD_eq_head?_getD, List.head?_drop, List.getD_eq_getElem?_getD]

theorem cursorAt_length (l : Lexed) :
    l.cursorAt l.tokens.length = ⟨l.tokens.reverse, [], l.last⟩ := by
  rw [cursorAt, List.take_length, List.drop_length]

variable {l : Lexed} {p q : Nat} {s s' : Parser.State} {ts : List Token} {ds : List Diagnostic}

theorem drop_of_step (h : s.cursor = l.cursorAt p) (step : Parser.Step s ts ds s') :
    l.tokens.drop p = ts ++ s'.cursor.ahead := by
  have ha := step.ahead
  rwa [h] at ha

/-- A step from one position leads to another. -/
theorem cursorAt_of_step (h : s.cursor = l.cursorAt p) (step : Parser.Step s ts ds s') :
    s'.cursor = l.cursorAt (p + ts.length) := by
  have ha := drop_of_step h step
  have hp : s'.cursor.passed = ts.reverse ++ (l.tokens.take p).reverse := by
    have := step.passed
    rwa [h] at this
  have hl : s'.cursor.last = l.last := by
    have := step.last
    rwa [h] at this
  have ht : l.tokens.take (p + ts.length) = l.tokens.take p ++ ts := by
    rw [List.take_add, ha, List.take_left]
  have hd : l.tokens.drop (p + ts.length) = s'.cursor.ahead := by
    rw [← List.drop_drop, ha, List.drop_left]
  rw [cursorAt, ht, hd, List.reverse_append, ← hp, ← hl]

theorem slice_of_step (h : s.cursor = l.cursorAt p) (step : Parser.Step s ts ds s') :
    l.slice p (p + ts.length) = ts := by
  rw [slice, drop_of_step h step, Nat.add_sub_cancel_left, List.take_left]

theorem mem_slice_of_step (h : s.cursor = l.cursorAt p) (step : Parser.Step s ts ds s')
    (hq : p + ts.length ≤ q) {t : Token} (ht : t ∈ ts) : t ∈ l.slice p q := by
  rw [slice, drop_of_step h step, List.take_append, List.take_of_length_le (by omega)]
  exact List.mem_append_left _ ht

theorem length_of_step (h : s.cursor = l.cursorAt p) (hp : p ≤ l.tokens.length)
    (step : Parser.Step s ts ds s') : p + ts.length ≤ l.tokens.length := by
  have ha := congrArg List.length step.ahead
  rw [h] at ha
  simp only [cursorAt, List.length_drop, List.length_append] at ha
  omega

end Lexed

/-! ## §2 Boundaries -/

/-- Is a position between statements: at the end, behind a semicolon or before a word that only
starts statements? -/
def Boundary (tokens : List Token) (q : Nat) : Prop :=
  q = tokens.length ∨ (∃ t, tokens[q - 1]? = some t ∧ t.kind = .semicolon) ∨
    ∃ t, tokens[q]? = some t ∧ t.kind.startsStatement = true

namespace Lexed

variable {l : Lexed} {q : Nat}

theorem getElem?_of_lt {i : Nat} (h : i < l.tokens.length) :
    l.tokens[i]? = some (l.tokenAt i) := by
  rw [tokenAt, List.getD_eq_getElem?_getD, List.getElem?_eq_getElem h]
  rfl

theorem previous_cursorAt (pos : 0 < q) (le : q ≤ l.tokens.length) :
    (l.cursorAt q).previous = l.tokenAt (q - 1) := by
  have hq : l.tokens[q - 1]? = some (l.tokenAt (q - 1)) := getElem?_of_lt (by omega)
  show (l.tokens.take q).reverse.headD l.last = _
  rw [List.headD_eq_head?_getD, List.head?_reverse, List.getLast?_take, if_neg (by omega), hq]
  rfl

theorem atEnd_cursorAt (le : q ≤ l.tokens.length) :
    (l.cursorAt q).atEnd = decide (q = l.tokens.length) := by
  rw [Bool.eq_iff_iff, decide_eq_true_iff]
  show (l.tokens.drop q).isEmpty = true ↔ _
  rw [List.isEmpty_iff, List.drop_eq_nil_iff]
  omega

theorem atBoundary_iff (pos : 0 < q) (le : q ≤ l.tokens.length) :
    (l.cursorAt q).atBoundary = true ↔ Boundary l.tokens q := by
  have hprev : l.tokens[q - 1]? = some (l.tokenAt (q - 1)) := getElem?_of_lt (by omega)
  rw [Cursor.atBoundary, Bool.or_eq_true, Bool.or_eq_true, atEnd_cursorAt le, decide_eq_true_iff,
    previous_cursorAt pos le, peek_cursorAt, beq_iff_eq, Boundary, hprev, or_assoc]
  by_cases h : q = l.tokens.length
  · simp [h]
  · rw [getElem?_of_lt (by omega : q < l.tokens.length)]
    simp

theorem drop_eq_cons (h : q < l.tokens.length) :
    l.tokens.drop q = l.tokenAt q :: l.tokens.drop (q + 1) := by
  rw [List.drop_eq_getElem_cons h, tokenAt, List.getD_eq_getElem?_getD, List.getElem?_eq_getElem h]
  rfl

theorem advance_cursorAt (h : q < l.tokens.length) :
    (l.cursorAt q).advance = l.cursorAt (q + 1) := by
  have hd := drop_eq_cons h
  have ht : l.tokens.take (q + 1) = l.tokens.take q ++ [l.tokenAt q] := by
    rw [List.take_add_one, getElem?_of_lt h]
    rfl
  rw [cursorAt, cursorAt, ht, hd, List.reverse_append]
  rfl

/-- Skipping stops at a boundary and passes a token elsewhere. -/
theorem toBoundary_of_lt (h : q < l.tokens.length) :
    (l.cursorAt q).toBoundary =
      if (l.cursorAt q).atBoundary then l.cursorAt q else (l.cursorAt (q + 1)).toBoundary := by
  rw [← advance_cursorAt h, cursorAt, drop_eq_cons h, Cursor.toBoundary, Cursor.skipFrom]
  rfl

/-- From a position behind the start, skipping leads to the first boundary there is. -/
theorem toBoundary_cursorAt (pos : 0 < q) (le : q ≤ l.tokens.length) :
    ∃ r, (l.cursorAt q).toBoundary = l.cursorAt r ∧ q ≤ r ∧ r ≤ l.tokens.length ∧
      Boundary l.tokens r ∧ ∀ i, q ≤ i → i < r → ¬ Boundary l.tokens i := by
  -- by induction on the distance from the end, where skipping stops at the latest
  obtain ⟨n, hn⟩ : ∃ n, l.tokens.length - q = n := ⟨_, rfl⟩
  induction n generalizing q with
  | zero =>
    have hq : q = l.tokens.length := by omega
    refine ⟨q, ?_, Nat.le_refl q, le, .inl hq, fun i _ _ => by omega⟩
    rw [hq, cursorAt_length]
    rfl
  | succ n ih =>
    rw [toBoundary_of_lt (by omega)]
    by_cases hb : (l.cursorAt q).atBoundary = true
    · rw [if_pos hb]
      exact ⟨q, rfl, Nat.le_refl q, le, (atBoundary_iff pos le).mp hb, fun i _ _ => by omega⟩
    · rw [if_neg hb]
      obtain ⟨r, hr, le', ler, br, first⟩ := ih (q := q + 1) (by omega) (by omega) (by omega)
      refine ⟨r, hr, by omega, ler, br, fun i hi hir => ?_⟩
      rcases Nat.eq_or_lt_of_le hi with rfl | hi
      · exact fun h => hb ((atBoundary_iff pos le).mpr h)
      · exact first i hi hir

/-- Where reading goes on after it unwound at position `e`: at the first boundary behind that
position. At the end there is nowhere to go. -/
def Resumption (l : Lexed) (e q : Nat) : Prop :=
  (e = l.tokens.length ∧ q = l.tokens.length) ∨
    (e < q ∧ q ≤ l.tokens.length ∧ Boundary l.tokens q ∧ ∀ r, e < r → r < q → ¬ Boundary l.tokens r)

theorem synchronize_cursorAt {e : Nat} (le : e ≤ l.tokens.length) :
    ∃ q, (l.cursorAt e).synchronize = l.cursorAt q ∧ l.Resumption e q := by
  by_cases h : e = l.tokens.length
  · refine ⟨e, ?_, .inl ⟨h, h⟩⟩
    rw [h, cursorAt_length]
    rfl
  · obtain ⟨q, hq, lt, le', bq, first⟩ :=
      toBoundary_cursorAt (l := l) (q := e + 1) (by omega) (by omega)
    refine ⟨q, ?_, .inr ⟨lt, le', bq, first⟩⟩
    rw [Cursor.synchronize, advance_cursorAt (by omega), hq]

end Lexed

/-! ## §3 Segments -/

/-- A stretch of the tokens and what became of it. -/
structure Segment where
  /-- The position of its first token. -/
  start : Nat
  /-- The position behind its last token. -/
  stop : Nat
  /-- The statement that was read from it, if it could be read. -/
  entry : Entry
  /-- The equals signs that were reported for what stands before them. -/
  signs : List Token
  /-- Where and why reading it unwound, if it did. -/
  failure : Option (Nat × Complaint)

namespace Segment

/-- The tokens of a segment. -/
def tokens (l : Lexed) (g : Segment) : List Token := l.slice g.start g.stop

/-- What was reported about a segment. -/
def diagnostics (l : Lexed) (g : Segment) : List Diagnostic :=
  Parser.misplaced g.signs ++ g.failure.toList.map fun (e, c) => .atToken (l.tokenAt e) c

/-- A segment is either a statement of the grammar, which ends with the only semicolon in it, or it
was dropped: reading unwound before it passed a semicolon, and the segment ends where reading was
resumed. -/
def Fits (l : Lexed) (g : Segment) : Prop :=
  g.start < g.stop ∧ g.stop ≤ l.tokens.length ∧
    (∀ t ∈ g.signs, t ∈ g.tokens l ∧ t.kind = .equal) ∧
    match g.entry, g.failure with
    | some stmt, none =>
      Declares (g.tokens l) stmt g.signs ∧
        ∃ body stop, g.tokens l = body ++ [stop] ∧ stop.kind = .semicolon ∧
          ∀ t ∈ body, t.kind ≠ .semicolon
    | none, some (e, c) =>
      c ≠ .invalidTarget ∧ g.start ≤ e ∧ (∀ t ∈ l.slice g.start e, t.kind ≠ .semicolon) ∧
        l.Resumption e g.stop
    | _, _ => False

/-- The segments lie one behind the other from one position to another. -/
def Tile : Nat → List Segment → Nat → Prop
  | p, [], q => p = q
  | p, g :: rest, q => g.start = p ∧ Tile g.stop rest q

variable {l : Lexed}

theorem slice_append {p q r : Nat} (hpq : p ≤ q) (hqr : q ≤ r) :
    l.slice p q ++ l.slice q r = l.slice p r := by
  have hd : l.tokens.drop q = (l.tokens.drop p).drop (q - p) := by
    rw [List.drop_drop, Nat.add_sub_cancel' hpq]
  rw [Lexed.slice, Lexed.slice, Lexed.slice, hd, ← List.take_add]
  congr 1
  omega

theorem le_of_tile : ∀ {segments : List Segment} {p q : Nat}, Tile p segments q →
    (∀ g ∈ segments, g.Fits l) → p ≤ q ∧ ∀ g ∈ segments, p ≤ g.start
  | [], p, q, tile, _ => ⟨Nat.le_of_eq tile, by simp⟩
  | g :: rest, p, q, ⟨hp, tile⟩, fits => by
      obtain ⟨le, all⟩ := le_of_tile tile (fun g' h => fits g' (List.mem_cons_of_mem g h))
      have lt : g.start < g.stop := (fits g List.mem_cons_self).1
      refine ⟨by omega, fun g' hg' => ?_⟩
      rcases List.mem_cons.mp hg' with rfl | hg'
      · omega
      · have := all g' hg'
        omega

/-- Segments that lie one behind the other make up the tokens between their ends. -/
theorem flatMap_tokens : ∀ {segments : List Segment} {p q : Nat}, Tile p segments q →
    (∀ g ∈ segments, g.Fits l) → segments.flatMap (tokens l) = l.slice p q
  | [], p, q, tile, _ => by
      have tile : p = q := tile
      simp [Lexed.slice, tile]
  | g :: rest, p, q, ⟨hp, tile⟩, fits => by
      have fits' : ∀ g' ∈ rest, g'.Fits l := fun g' h => fits g' (List.mem_cons_of_mem g h)
      have lt : g.start < g.stop := (fits g List.mem_cons_self).1
      rw [List.flatMap_cons, flatMap_tokens tile fits', tokens, hp,
        slice_append (by omega) (le_of_tile tile fits').1]

/-- The position at which reading a segment unwound. -/
def failureAt? (g : Segment) : Option Nat := g.failure.map (·.1)

/-- Reading a segment unwinds at one of its tokens, or at the end. -/
theorem failureAt_bounds {g : Segment} (fits : g.Fits l) {e : Nat} (h : g.failureAt? = some e) :
    g.start ≤ e ∧ (e < g.stop ∨ e = l.tokens.length ∧ g.stop = l.tokens.length) := by
  obtain ⟨start, stop, entry, signs, failure⟩ := g
  obtain ⟨-, -, -, h'⟩ := fits
  cases failure with
  | none => simp [failureAt?] at h
  | some f =>
    cases entry with
    | some stmt => exact h'.elim
    | none =>
      obtain ⟨-, le, -, resumed⟩ := h'
      injection h with h
      subst h
      rcases resumed with ⟨he, hq⟩ | ⟨lt, -, -, -⟩
      · exact ⟨le, .inr ⟨he, hq⟩⟩
      · exact ⟨le, .inl lt⟩

/-- Reading unwinds at later and later positions. -/
theorem pairwise_failures : ∀ {segments : List Segment} {p : Nat},
    Tile p segments l.tokens.length → (∀ g ∈ segments, g.Fits l) →
    (segments.filterMap failureAt?).Pairwise (· < ·)
  | [], _, _, _ => .nil
  | g :: rest, p, ⟨_, tile⟩, fits => by
      have fits' : ∀ g' ∈ rest, g'.Fits l := fun g' h => fits g' (List.mem_cons_of_mem g h)
      have ih := pairwise_failures tile fits'
      cases he : g.failureAt? with
      | none => rwa [List.filterMap_cons_none he]
      | some e =>
        rw [List.filterMap_cons_some he, List.pairwise_cons]
        refine ⟨fun e' he' => ?_, ih⟩
        -- a segment that fails at the end is the last one, for the others are not empty
        obtain ⟨g', hg', he'⟩ := List.mem_filterMap.mp he'
        have after := (le_of_tile tile fits').2 g' hg'
        have bounds := failureAt_bounds (fits g List.mem_cons_self) he
        have bounds' := failureAt_bounds (fits' g' hg') he'
        have inside : g'.start < g'.stop ∧ g'.stop ≤ l.tokens.length :=
          ⟨(fits' g' hg').1, (fits' g' hg').2.1⟩
        omega

/-- Is a diagnostic about an equals sign? -/
def aboutSign (d : Diagnostic) : Bool := d.complaint == .invalidTarget

theorem countP_misplaced (signs : List Token) :
    (Parser.misplaced signs).countP aboutSign = signs.length := by
  rw [Parser.misplaced, List.countP_map, List.countP_eq_length.mpr]
  intro t _
  rfl

/-- A segment has one diagnostic for each of its signs, and one more if it was dropped. -/
theorem length_diagnostics {g : Segment} (fits : g.Fits l) :
    (g.diagnostics l).length =
      (if g.entry.isNone then 1 else 0) + (g.diagnostics l).countP aboutSign := by
  obtain ⟨start, stop, entry, signs, failure⟩ := g
  obtain ⟨-, -, -, h⟩ := fits
  rw [diagnostics, List.length_append, List.countP_append, countP_misplaced]
  match entry, failure, h with
  | some stmt, none, _ => simp [Parser.misplaced]
  | none, some (e, c), ⟨unwinding, _, _⟩ =>
    have hc : aboutSign (.atToken (l.tokenAt e) c) = false := by
      simpa [aboutSign, Diagnostic.atToken] using unwinding
    simp [Parser.misplaced, hc]
    omega

theorem length_flatMap_diagnostics : ∀ {segments : List Segment}, (∀ g ∈ segments, g.Fits l) →
    (segments.flatMap (diagnostics l)).length =
      (segments.map entry).countP Option.isNone +
        (segments.flatMap (diagnostics l)).countP aboutSign
  | [], _ => rfl
  | g :: rest, fits => by
      have ih := length_flatMap_diagnostics (fun g' h => fits g' (List.mem_cons_of_mem g h))
      have first := length_diagnostics (fits g List.mem_cons_self)
      rw [List.flatMap_cons, List.length_append, List.countP_append, List.map_cons,
        List.countP_cons, first, ih]
      omega

end Segment

/-! ## §4 One declaration -/

namespace Parser

variable {l : Lexed} {p : Nat} {s : State}

/-- Reading a declaration gives one segment, which starts where the cursor stood and ends where it
stands afterwards. -/
theorem declaration_segment (budget : Nat) (hs : s.cursor = l.cursorAt p)
    (hp : p < l.tokens.length) :
    ∃ (g : Segment) (s' : State), declaration budget s = .ok g.entry s' ∧ g.start = p ∧
      s'.cursor = l.cursorAt g.stop ∧ g.Fits l ∧
      s'.diagnostics = s.diagnostics ++ g.diagnostics l := by
  have ends := attempt_ends budget s
  rw [declaration_eq]
  generalize attempt budget s = r at ends
  cases ends with
  | @ok ts signs stmt s' declared step =>
    have slice : l.slice p (p + ts.length) = ts := Lexed.slice_of_step hs step
    have pos : 0 < ts.length := List.length_pos_iff.mpr declared.ne_nil
    refine ⟨⟨p, p + ts.length, some stmt, signs, none⟩, s', rfl, rfl,
      Lexed.cursorAt_of_step hs step,
      ⟨Nat.lt_add_of_pos_right pos, Lexed.length_of_step hs (by omega) step, ?_, ?_⟩, ?_⟩
    · show ∀ t ∈ signs, t ∈ l.slice p (p + ts.length) ∧ _
      rw [slice]
      exact declared.mem_of_mem_signs
    · show Declares (l.slice p (p + ts.length)) stmt signs ∧ _
      rw [Segment.tokens, slice]
      exact ⟨declared, declared.exists_stop⟩
    · rw [step.diagnostics, Segment.diagnostics]
      simp
  | @error ts signs c s' inside unwinding step =>
    have hs' := Lexed.cursorAt_of_step hs step
    have le : p + ts.length ≤ l.tokens.length := Lexed.length_of_step hs (by omega) step
    obtain ⟨q, hq, resumed⟩ := Lexed.synchronize_cursorAt le
    have far : p + ts.length ≤ q ∧ p < q ∧ q ≤ l.tokens.length := by
      rcases resumed with ⟨he, rfl⟩ | ⟨lt, le', -, -⟩
      · omega
      · omega
    refine ⟨⟨p, q, none, signs, some (p + ts.length, c)⟩, _, rfl, rfl, ?_,
      ⟨far.2.1, far.2.2, ?_, unwinding, Nat.le_add_right _ _, ?_, resumed⟩, ?_⟩
    · show s'.cursor.synchronize = _
      rw [hs', hq]
    · intro t ht
      exact ⟨Lexed.mem_slice_of_step hs step far.1 (inside.signs t ht).1, (inside.signs t ht).2⟩
    · show ∀ t ∈ l.slice p (p + ts.length), t.kind ≠ .semicolon
      rw [Lexed.slice_of_step hs step]
      exact inside.noStop
    · show s'.diagnostics = _
      rw [step.diagnostics, hs', Lexed.peek_cursorAt]
      rfl

/-! ## §5 A whole program -/

/-- The loop over declarations lays segment to segment until nothing is ahead. -/
theorem entries_segments (budget : Nat) : ∀ (rounds : List Token) {p : Nat} {s : State},
    s.cursor = l.cursorAt p → p ≤ l.tokens.length → l.tokens.length ≤ p + rounds.length →
    ∃ (segments : List Segment) (s' : State),
      entries budget rounds s = .ok (segments.map Segment.entry) s' ∧
      Segment.Tile p segments l.tokens.length ∧ (∀ g ∈ segments, g.Fits l) ∧
      s'.cursor = l.cursorAt l.tokens.length ∧
      s'.diagnostics = s.diagnostics ++ segments.flatMap (Segment.diagnostics l)
  | [], p, s, hs, hp, hr => by
      have hp : p = l.tokens.length := by simp at hr; omega
      exact ⟨[], s, rfl, hp, by simp, hp ▸ hs, by simp⟩
  | _ :: rounds, p, s, hs, hp, hr => by
      rw [entries]
      have hend : atEnd s = .ok (decide (p = l.tokens.length)) s := by
        rw [← Lexed.atEnd_cursorAt hp, ← hs]
        rfl
      rw [bind_ok hend]
      by_cases h : p = l.tokens.length
      · rw [if_pos (decide_eq_true h)]
        exact ⟨[], s, rfl, h, by simp, h ▸ hs, by simp⟩
      · rw [if_neg (by simpa using h)]
        obtain ⟨g, s₁, hd, rfl, hs₁, fits, diag₁⟩ := declaration_segment budget hs (by omega)
        obtain ⟨lt, le, -, -⟩ := id fits
        obtain ⟨segments, s', he, tile, all, hs', diag⟩ :=
          entries_segments budget rounds hs₁ le (by simp at hr; omega)
        refine ⟨g :: segments, s', ?_, ⟨rfl, tile⟩, ?_, hs', ?_⟩
        · rw [bind_ok hd, bind_ok he]
          rfl
        · intro g' hg'
          rcases List.mem_cons.mp hg' with rfl | hg'
          · exact fits
          · exact all g' hg'
        · rw [diag, diag₁, List.flatMap_cons, List.append_assoc]

/-- A program is cut into segments from the first token to the last. -/
theorem program_segments (l : Lexed) (budget : Nat) :
    ∃ (segments : List Segment) (s : State),
      program budget ⟨.start l.tokens l.last, []⟩ = .ok (segments.map Segment.entry) s ∧
      Segment.Tile 0 segments l.tokens.length ∧ (∀ g ∈ segments, g.Fits l) ∧
      s.cursor = l.cursorAt l.tokens.length ∧
      s.diagnostics = segments.flatMap (Segment.diagnostics l) := by
  obtain ⟨segments, s, he, tile, all, hs, diag⟩ :=
    entries_segments (l := l) (s := ⟨.start l.tokens l.last, []⟩) budget l.tokens rfl
      (Nat.zero_le _) (by omega)
  exact ⟨segments, s, he, tile, all, hs, diag⟩

end Parser

/-- **Recovery cuts the tokens into segments.** Whatever the tokens are, reading ends with the
cursor at the end, and the tokens split into segments that are not empty, one for each entry in
order. Each fits its entry, the diagnostics are those of the segments in order, the positions at
which reading unwound increase, and every dropped statement has one diagnostic besides those about
signs. -/
theorem parse_cut_into_segments (l : Lexed) (budget : Nat) :
    ∃ (segments : List Segment) (s : Parser.State),
      Parser.program budget ⟨.start l.tokens l.last, []⟩ = .ok (segments.map Segment.entry) s ∧
      s.cursor = ⟨l.tokens.reverse, [], l.last⟩ ∧
      l.parse budget = (segments.map Segment.entry, s.diagnostics) ∧
      Segment.Tile 0 segments l.tokens.length ∧
      segments.flatMap (Segment.tokens l) = l.tokens ∧
      (∀ g ∈ segments, g.Fits l) ∧
      s.diagnostics = segments.flatMap (Segment.diagnostics l) ∧
      (segments.filterMap Segment.failureAt?).Pairwise (· < ·) ∧
      s.diagnostics.length = (segments.map Segment.entry).countP Option.isNone +
        s.diagnostics.countP Segment.aboutSign := by
  obtain ⟨segments, s, run, tile, fits, hs, diag⟩ := Parser.program_segments l budget
  have whole : l.slice 0 l.tokens.length = l.tokens := by simp [Lexed.slice]
  refine ⟨segments, s, run, ?_, ?_, tile, ?_, fits, diag, ?_, ?_⟩
  · rw [hs, Lexed.cursorAt_length]
  · rw [Lexed.parse, run]
  · rw [Segment.flatMap_tokens tile fits, whole]
  · exact Segment.pairwise_failures tile fits
  · rw [diag]
    exact Segment.length_flatMap_diagnostics fits

end Scriptlet
