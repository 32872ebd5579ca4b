/-
Scriptlet.Proofs.Token.LineEnd — line ends of two symbols are read like those of one.

A carriage return is a blank, and a line ends with its line feed. Where every
carriage return stands before a line feed, and none is part of a string, unifying
the line ends can only shorten a comment or a run of blanks before a line feed,
and behind the line feed everything has the position it had. No token and no
diagnostic changes (`lex_unifyNewlines`).

  §1 Unified line ends.
  §2 Slices.
  §3 Pieces.
  §4 Tokens and diagnostics.
-/
import Scriptlet.Text.Newline
import Scriptlet.Proofs.Token.Location

namespace Scriptlet

/-! ## §1 Unified line ends -/

namespace Text

/-- Does every carriage return stand before a line feed? -/
def returnsBeforeFeeds : Text → Bool
  | [] => true
  | .char '\r' :: .char '\n' :: rest => returnsBeforeFeeds rest
  | s :: rest => s != .char '\r' && returnsBeforeFeeds rest

variable {s : Symbol} {t u : Text}

theorem unifyNewlines_cons (h : s ≠ .char '\r') (t : Text) :
    unifyNewlines (s :: t) = s :: unifyNewlines t := by
  rw [unifyNewlines]
  · rintro rest rfl
    exact absurd rfl h
  · exact h

/-- What starts with a carriage return starts with a line feed afterwards. -/
theorem exists_unifyNewlines_return (t : Text) :
    ∃ rest, unifyNewlines (.char '\r' :: t) = Symbol.lineFeed :: rest := by
  cases t with
  | nil => exact ⟨_, rfl⟩
  | cons s t =>
    by_cases h : s = .char '\n'
    · subst h
      exact ⟨unifyNewlines t, rfl⟩
    · refine ⟨unifyNewlines (s :: t), ?_⟩
      rw [unifyNewlines]
      rintro rest eq
      exact h (List.cons.inj eq).1

theorem unifyNewlines_append_of_not_mem (h : Symbol.char '\r' ∉ t) (u : Text) :
    unifyNewlines (t ++ u) = t ++ unifyNewlines u := by
  induction t with
  | nil => rfl
  | cons s t ih =>
    rw [List.mem_cons, not_or] at h
    rw [List.cons_append, unifyNewlines_cons (Ne.symm h.1), ih h.2, List.cons_append]

/-- A text without carriage returns has unified line ends. -/
theorem unifyNewlines_of_not_mem (h : Symbol.char '\r' ∉ t) : unifyNewlines t = t := by
  have whole := unifyNewlines_append_of_not_mem h []
  rwa [List.append_nil, unifyNewlines, List.append_nil] at whole

theorem returnsBeforeFeeds_cons (h : s ≠ .char '\r') (t : Text) :
    returnsBeforeFeeds (s :: t) = returnsBeforeFeeds t := by
  rw [returnsBeforeFeeds]
  · simp [h]
  · rintro rest rfl
    exact absurd rfl h

/-- Behind a carriage return stands a line feed. -/
theorem exists_of_returnsBeforeFeeds (h : returnsBeforeFeeds (.char '\r' :: t) = true) :
    ∃ rest, t = Symbol.lineFeed :: rest ∧ returnsBeforeFeeds rest = true := by
  cases t with
  | nil => cases h
  | cons s t =>
    by_cases feed : s = .char '\n'
    · subst feed
      exact ⟨t, rfl, h⟩
    · rw [returnsBeforeFeeds] at h
      · simp at h
      · rintro rest - eq
        exact feed (List.cons.inj eq).1

theorem returnsBeforeFeeds_of_append (h : returnsBeforeFeeds (t ++ u) = true) :
    returnsBeforeFeeds u = true := by
  induction t with
  | nil => exact h
  | cons s t ih =>
    apply ih
    by_cases ret : s = .char '\r'
    · subst ret
      obtain ⟨rest, eq, paired⟩ := exists_of_returnsBeforeFeeds (t := t ++ u) h
      rwa [eq, returnsBeforeFeeds_cons (by decide)]
    · rwa [List.cons_append, returnsBeforeFeeds_cons ret] at h

theorem returnsBeforeFeeds_of_not_mem (h : Symbol.char '\r' ∉ t) :
    returnsBeforeFeeds t = true := by
  induction t with
  | nil => rfl
  | cons s t ih =>
    rw [List.mem_cons, not_or] at h
    rw [returnsBeforeFeeds_cons (Ne.symm h.1), ih h.2]

theorem lineFeeds_unifyNewlines (h : returnsBeforeFeeds t = true) :
    (unifyNewlines t).lineFeeds = t.lineFeeds := by
  fun_induction returnsBeforeFeeds t with
  | case1 => rfl
  | case2 rest ih =>
    have feeds : lineFeeds (.char '\r' :: .char '\n' :: rest) = lineFeeds rest + 1 :=
      (lineFeeds_cons_of_ne (by decide) _).trans (lineFeeds_cons_lineFeed rest)
    rw [feeds, unifyNewlines, lineFeeds_cons_lineFeed, ih h]
  | case3 s rest _ ih =>
    rw [Bool.and_eq_true, bne_iff_ne] at h
    rw [unifyNewlines_cons h.1, lineFeeds, lineFeeds, List.count_cons, List.count_cons]
    exact congrArg (· + _) (ih h.2)

end Text

/-! ## §2 Slices -/

namespace Piece

open Text (unifyNewlines returnsBeforeFeeds)

variable {test : Symbol → Bool}

/-- A slice that no line end goes on with is the same behind unified line ends. -/
theorem span_unifyNewlines (noReturn : test (.char '\r') = false)
    (noFeed : test Symbol.lineFeed = false) (t : Text) :
    span test (unifyNewlines t) = ((span test t).1, unifyNewlines (span test t).2) := by
  induction t with
  | nil => rfl
  | cons s t ih =>
    by_cases ret : s = .char '\r'
    · subst ret
      obtain ⟨rest, unified⟩ := Text.exists_unifyNewlines_return t
      simp [span, noReturn, noFeed, unified]
    · rw [Text.unifyNewlines_cons ret]
      simp only [span, Prod.mk.injEq] at ih ⊢
      cases passed : test s with
      | true => simp [passed, ih]
      | false => simp [passed, Text.unifyNewlines_cons ret]

/-- A slice that a carriage return goes on with ends at the same place, or lost one before a line
feed. -/
theorem span_unifyNewlines_of_return (goesOn : test (.char '\r') = true)
    (noFeed : test Symbol.lineFeed = false) {t : Text} (paired : returnsBeforeFeeds t = true) :
    (span test (unifyNewlines t)).2 = unifyNewlines (span test t).2 ∧
      ((span test (unifyNewlines t)).1 = (span test t).1 ∨
        (span test t).2.head? = some Symbol.lineFeed) := by
  fun_induction returnsBeforeFeeds t with
  | case1 => exact ⟨rfl, .inl rfl⟩
  | case2 rest ih =>
    have stops : span test (.char '\r' :: Symbol.lineFeed :: rest) =
        ([.char '\r'], Symbol.lineFeed :: rest) := by
      simp [span, goesOn, noFeed]
    have unified : unifyNewlines (.char '\r' :: Symbol.lineFeed :: rest) =
        unifyNewlines (Symbol.lineFeed :: rest) :=
      (Text.unifyNewlines_cons (by decide) rest).symm
    refine ⟨?_, .inr (congrArg (List.head? ∘ Prod.snd) stops)⟩
    show (span test (unifyNewlines (.char '\r' :: Symbol.lineFeed :: rest))).2 =
      unifyNewlines (span test (.char '\r' :: Symbol.lineFeed :: rest)).2
    rw [stops, unified, Text.unifyNewlines_cons (by decide)]
    simp [span, noFeed]
  | case3 s rest _ ih =>
    rw [Bool.and_eq_true, bne_iff_ne] at paired
    have ih := ih paired.2
    rw [Text.unifyNewlines_cons paired.1]
    simp only [span] at ih ⊢
    cases passed : test s with
    | true => simpa [passed] using ih
    | false => simp [passed, Text.unifyNewlines_cons paired.1]

/-! ## §3 Pieces -/

/-- Does what follows the digits of a number go on with a fraction? -/
def opensFraction : Text → Bool
  | p :: d :: _ => p == Symbol.point && d.isDigit
  | _ => false

theorem cutNumber_of_not_opensFraction {first : Symbol} {rest : Text}
    (h : opensFraction (span Symbol.isDigit rest).2 = false) :
    cutNumber first rest =
      (⟨.number, first :: (span Symbol.isDigit rest).1⟩, (span Symbol.isDigit rest).2) := by
  unfold cutNumber
  generalize span Symbol.isDigit rest = parts at h
  obtain ⟨whole, after⟩ := parts
  match after with
  | [] => rfl
  | [p] => rfl
  | p :: d :: more =>
    simp only [opensFraction, Bool.and_eq_false_iff, beq_eq_false_iff_ne] at h
    rcases h with h | h <;> simp [h]

theorem opensFraction_unifyNewlines (t : Text) :
    opensFraction (unifyNewlines t) = opensFraction t := by
  have noFraction : ∀ {s : Symbol} {rest : Text}, s ≠ Symbol.point →
      opensFraction (s :: rest) = false := by
    intro s rest h
    cases rest <;> simp [opensFraction, h]
  cases t with
  | nil => rfl
  | cons p t =>
    by_cases ret : p = .char '\r'
    · subst ret
      obtain ⟨rest, unified⟩ := Text.exists_unifyNewlines_return t
      rw [unified, noFraction (by decide), noFraction (by decide)]
    rw [Text.unifyNewlines_cons ret]
    cases t with
    | nil => rfl
    | cons d t =>
      by_cases ret : d = .char '\r'
      · subst ret
        obtain ⟨rest, unified⟩ := Text.exists_unifyNewlines_return t
        have noDigit : Symbol.lineFeed.isDigit = false ∧ Symbol.isDigit (.char '\r') = false := by
          decide
        rw [unified]
        simp [opensFraction, noDigit]
      · rw [Text.unifyNewlines_cons ret]
        rfl

theorem cutNumber_unifyNewlines (first : Symbol) (rest : Text) :
    cutNumber first (unifyNewlines rest) =
      ((cutNumber first rest).1, unifyNewlines (cutNumber first rest).2) := by
  have digits : ∀ t, span Symbol.isDigit (unifyNewlines t) =
      ((span Symbol.isDigit t).1, unifyNewlines (span Symbol.isDigit t).2) :=
    span_unifyNewlines (by decide) (by decide)
  cases fraction : opensFraction (span Symbol.isDigit rest).2 with
  | false =>
    have unified : opensFraction (span Symbol.isDigit (unifyNewlines rest)).2 = false := by
      rw [digits, opensFraction_unifyNewlines, fraction]
    rw [cutNumber_of_not_opensFraction fraction, cutNumber_of_not_opensFraction unified, digits]
  | true =>
    unfold cutNumber
    rw [digits]
    generalize span Symbol.isDigit rest = parts at fraction
    obtain ⟨whole, after⟩ := parts
    match after, fraction with
    | p :: d :: more, fraction =>
      simp only [opensFraction, Bool.and_eq_true, beq_iff_eq] at fraction
      obtain ⟨rfl, digit⟩ := fraction
      have noReturn : d ≠ .char '\r' := by
        rintro rfl
        cases digit
      simp only [Text.unifyNewlines_cons (show Symbol.point ≠ .char '\r' by decide),
        Text.unifyNewlines_cons noReturn, digit, digits, and_self, if_true]

theorem cutMark_unifyNewlines (first : Symbol) (rest : Text) :
    cutMark first (unifyNewlines rest) =
      ((cutMark first rest).1, unifyNewlines (cutMark first rest).2) := by
  have single : ∀ t, cutSymbol first (unifyNewlines t) =
      ((cutSymbol first t).1, unifyNewlines (cutSymbol first t).2) := by
    intro t
    unfold cutSymbol
    split <;> rfl
  cases rest with
  | nil => exact single []
  | cons second after =>
    by_cases ret : second = .char '\r'
    · subst ret
      obtain ⟨more, unified⟩ := Text.exists_unifyNewlines_return after
      have here := single (.char '\r' :: after)
      rw [unified] at here ⊢
      rw [cutMark, cutMark, Symbol.ofPair?_eq_none (by decide), Symbol.ofPair?_eq_none (by decide)]
      exact here
    · have here := single (second :: after)
      rw [Text.unifyNewlines_cons ret] at here ⊢
      rw [cutMark, cutMark]
      cases Token.Kind.ofPair? first second with
      | none => exact here
      | some kind => rfl

theorem opensComment_unifyNewlines (first : Symbol) (rest : Text) :
    opensComment first (unifyNewlines rest) = opensComment first rest := by
  cases rest with
  | nil => rfl
  | cons s rest =>
    by_cases ret : s = .char '\r'
    · subst ret
      obtain ⟨more, unified⟩ := Text.exists_unifyNewlines_return rest
      rw [unified]
      rfl
    · rw [Text.unifyNewlines_cons ret]
      rfl

/-- A string without carriage returns is cut off as before. -/
theorem cutString_unifyNewlines {rest : Text}
    (noReturn : Symbol.char '\r' ∉ (cutString rest).1.text) :
    cutString (unifyNewlines rest) =
      ((cutString rest).1, unifyNewlines (cutString rest).2) := by
  have inner := mem_span (· != Symbol.quote) rest
  have stop := head_span (· != Symbol.quote) rest
  have parts := span_append (· != Symbol.quote) rest
  unfold cutString at noReturn ⊢
  cases cut : span (· != Symbol.quote) rest with
  | mk body after =>
    rw [cut] at inner stop parts noReturn
    subst parts
    cases after with
    | nil =>
      have noReturn : Symbol.char '\r' ∉ body ++ [] := by simp_all
      rw [Text.unifyNewlines_of_not_mem noReturn, cut]
      rfl
    | cons q more =>
      have quote : q = Symbol.quote := by simpa using stop q rfl
      subst quote
      have noReturn : Symbol.char '\r' ∉ body := by simp_all
      rw [Text.unifyNewlines_append_of_not_mem noReturn, Text.unifyNewlines_cons (by decide),
        span_eq inner (by simp)]

/-- The forms of pieces that a line end of two symbols can shorten. -/
def Form.isFiller : Form → Bool
  | .comment | .blank => true
  | _ => false

/-- The forms of strings. -/
def Form.isString : Form → Bool
  | .string | .openString => true
  | _ => false

theorem isString_cutString (rest : Text) : (cutString rest).1.form.isString = true := by
  unfold cutString
  split <;> rfl

/-- A piece and what follows it, once as cut and once as cut with unified line ends: the piece is
the same, or it is a filler that lost a carriage return before a line feed. -/
def Unified (cut unified : Piece × Text) : Prop :=
  unified.2 = unifyNewlines cut.2 ∧
    (unified.1 = cut.1 ∨ unified.1.form.isFiller = true ∧ cut.1.form.isFiller = true ∧
      cut.2.head? = some Symbol.lineFeed)

theorem Unified.of_eq {cut unified : Piece × Text}
    (h : unified = (cut.1, unifyNewlines cut.2)) : Unified cut unified := by
  subst h
  exact ⟨rfl, .inl rfl⟩

theorem unified_cutRun {form : Form} (filler : form.isFiller = true)
    (goesOn : test (.char '\r') = true) (noFeed : test Symbol.lineFeed = false) (first : Symbol)
    {rest : Text} (paired : returnsBeforeFeeds rest = true) :
    Unified (cutRun form test first rest) (cutRun form test first (unifyNewlines rest)) := by
  obtain ⟨remaining, same | shortened⟩ := span_unifyNewlines_of_return goesOn noFeed paired
  · exact ⟨remaining, .inl (by rw [cutRun, same]; rfl)⟩
  · exact ⟨remaining, .inr ⟨filler, filler, shortened⟩⟩

/-- Unified line ends keep the first piece, or shorten a filler. -/
theorem unified_cut {first : Symbol} {rest : Text} (paired : returnsBeforeFeeds rest = true)
    (noReturn : (cut first rest).1.form.isString = true →
      Symbol.char '\r' ∉ (cut first rest).1.text) :
    Unified (cut first rest) (cut first (unifyNewlines rest)) := by
  revert noReturn
  unfold cut
  rw [opensComment_unifyNewlines]
  split
  · exact fun noReturn => .of_eq (cutString_unifyNewlines (noReturn (isString_cutString rest)))
  split
  · exact fun _ => .of_eq (cutNumber_unifyNewlines first rest)
  split
  · intro _
    apply Unified.of_eq
    rw [cutRun, span_unifyNewlines (by decide) (by decide)]
    rfl
  split
  · exact fun _ => unified_cutRun rfl (by decide) (by decide) first paired
  split
  · exact fun _ => .of_eq rfl
  split
  · exact fun _ => unified_cutRun rfl (by decide) (by decide) first paired
  · exact fun _ => .of_eq (cutMark_unifyNewlines first rest)

theorem isSilent_of_isFiller {form : Form} (h : form.isFiller = true) : form.isSilent = true := by
  cases form with
  | comment | blank => rfl
  | _ => cases h

theorem isFlat_of_isFiller {form : Form} (h : form.isFiller = true) : form.isFlat = true := by
  cases form with
  | comment | blank => rfl
  | _ => cases h

end Piece

/-! ## §4 Tokens and diagnostics -/

namespace Text

/-- What is made of the pieces of a text that begins at a position. -/
def made {β : Type} (f : Position → Piece → Option β) (p : Position) (t : Text) : List β :=
  (Piece.located p t.pieces).filterMap fun (q, piece) => f q piece

section Made

variable {β : Type} {f : Position → Piece → Option β}

theorem made_cons (p : Position) (first : Symbol) (rest : Text) :
    made f p (first :: rest) = (f p (Piece.cut first rest).1).toList ++
      made f (p.advance (Piece.cut first rest).1.text) (Piece.cut first rest).2 := by
  rw [made, pieces, Piece.filterMap_located_cons]
  rfl

theorem made_lineFeed (silent : ∀ p piece, piece.form.isSilent = true → f p piece = none)
    (p : Position) (t : Text) :
    made f p (Symbol.lineFeed :: t) = made f ⟨p.line + 1, 0⟩ t := by
  rw [made_cons, Piece.cut_of_lineFeed, silent p _ rfl]
  rfl

/-- Unifying line ends changes nothing that is made of the pieces, if fillers are silent. -/
theorem made_unifyNewlines (silent : ∀ p piece, piece.form.isSilent = true → f p piece = none)
    {t : Text} (paired : returnsBeforeFeeds t = true)
    (noReturn : ∀ piece ∈ t.pieces, piece.form.isString = true → .char '\r' ∉ piece.text)
    (p : Position) : made f p t.unifyNewlines = made f p t := by
  induction t using pieces.induct generalizing p with
  | case1 => rfl
  | case2 first rest ih =>
    have here := noReturn (Piece.cut first rest).1 (by rw [pieces]; exact List.mem_cons_self)
    have remaining : returnsBeforeFeeds (Piece.cut first rest).2 = true := by
      refine returnsBeforeFeeds_of_append (t := (Piece.cut first rest).1.text) ?_
      rw [Piece.cut_append, paired]
    have ih := ih remaining fun piece mem => noReturn piece (by rw [pieces]; exact .tail _ mem)
    by_cases ret : first = .char '\r'
    · -- the carriage return is a blank of its own, which disappears
      subst ret
      obtain ⟨more, rfl, -⟩ := exists_of_returnsBeforeFeeds paired
      have cut : Piece.cut (.char '\r') (Symbol.lineFeed :: more) =
          (⟨.blank, [.char '\r']⟩, Symbol.lineFeed :: more) := rfl
      have unified : unifyNewlines (.char '\r' :: Symbol.lineFeed :: more) =
          Symbol.lineFeed :: unifyNewlines more := rfl
      rw [cut, unifyNewlines_cons (by decide)] at ih
      rw [unified, made_cons p (.char '\r'), cut, silent p _ rfl, Option.toList_none,
        List.nil_append, ← ih, made_lineFeed silent, made_lineFeed silent]
      rfl
    · rw [returnsBeforeFeeds_cons ret] at paired
      rw [unifyNewlines_cons ret, made_cons p, made_cons p]
      obtain ⟨behind, same | ⟨filler', filler, feed⟩⟩ := Piece.unified_cut paired here
      · rw [behind, same, ih]
      · obtain ⟨more, eq⟩ := List.head?_eq_some_iff.mp feed
        have sameLine : ∀ {first : Symbol} {rest : Text},
            (Piece.cut first rest).1.form.isFiller = true →
            (p.advance (Piece.cut first rest).1.text).line = p.line := by
          intro first rest filler
          rw [Position.advance_of_not_mem
            (Piece.lineFeed_not_mem_cut (Piece.isFlat_of_isFiller filler))]
        rw [silent p _ (Piece.isSilent_of_isFiller filler'),
          silent p _ (Piece.isSilent_of_isFiller filler), behind, ← ih, eq,
          unifyNewlines_cons (by decide), made_lineFeed silent, made_lineFeed silent,
          sameLine filler', sameLine filler]

end Made

/-- Carriage returns that only end lines: each stands before a line feed, and none in a string. -/
structure ReturnsEndLines (t : Text) : Prop where
  paired : t.returnsBeforeFeeds = true
  outside : ∀ piece ∈ t.pieces, piece.form.isString = true → .char '\r' ∉ piece.text

theorem returnsEndLines_of_not_mem {t : Text} (h : Symbol.char '\r' ∉ t) :
    t.ReturnsEndLines where
  paired := returnsBeforeFeeds_of_not_mem h
  outside piece mem _ ret := by
    rw [← t.flatMap_pieces] at h
    exact h (List.mem_flatMap.mpr ⟨piece, mem, ret⟩)

/-- **Line ends of two symbols are read like those of one.** If carriage returns only end lines,
unifying the line ends changes no token and no diagnostic. -/
theorem lex_unifyNewlines {t : Text} (h : t.ReturnsEndLines) : t.unifyNewlines.lex = t.lex := by
  obtain ⟨paired, noReturn⟩ := h
  have last : (Position.start.advance t.unifyNewlines).line = (Position.start.advance t).line := by
    rw [Position.line_advance, Position.line_advance, lineFeeds_unifyNewlines paired]
  have tokens : made (fun p piece => piece.token? p) .start t.unifyNewlines =
      made (fun p piece => piece.token? p) .start t := by
    refine made_unifyNewlines (fun p piece silent => ?_) paired noReturn .start
    rw [Piece.token?, Piece.tokenIn?, Option.map_eq_none_iff]
    exact Option.map_eq_none_iff.mp (Piece.word?_of_isSilent silent)
  have diagnostics : made (fun p piece => piece.diagnostic? p) .start t.unifyNewlines =
      made (fun p piece => piece.diagnostic? p) .start t := by
    refine made_unifyNewlines (fun p piece silent => ?_) paired noReturn .start
    rw [Piece.diagnostic?, Piece.diagnosticIn?, Piece.complaint?_of_isSilent silent]
    rfl
  rw [lex_eq_located, lex_eq_located, last]
  exact congrArg₂ (Lexed.mk · _ ·) tokens diagnostics

end Text

end Scriptlet
