/-
Scriptlet.Proofs.Token.Seam — sources joined by a line feed are read one by one.

A line feed ends every piece but a string: it is no part of a number, a word, a
mark or a run of blanks, and it ends a comment. So unless a source ends inside a
string, a line feed behind it keeps its pieces as they are, and what follows the
line feed is cut as if it stood alone (`pieces_append_lineFeed`). It begins in
the first column, and only its lines are counted from further down
(`lex_append_lineFeed`).

  §1 Pieces.
  §2 Positions.
  §3 Tokens and diagnostics.
-/
import Scriptlet.Proofs.Token.Layout
import Scriptlet.Proofs.Tree.Relocation

namespace Scriptlet

/-! ## §1 Pieces -/

namespace Piece

variable (b : Text)

/-- A slice ends where it did before, if something already ended it or the line feed does. -/
theorem span_append_lineFeed {test : Symbol → Bool} {t : Text}
    (h : (span test t).2 ≠ [] ∨ test Symbol.lineFeed = false) :
    span test (t ++ Symbol.lineFeed :: b) =
      ((span test t).1, (span test t).2 ++ Symbol.lineFeed :: b) := by
  have inner := mem_span test t
  have stop := head_span test t
  conv => lhs; rw [← span_append test t, List.append_assoc]
  refine span_eq inner ?_
  cases after : (span test t).2 with
  | nil => simpa [after] using h
  | cons s more =>
    rw [after] at stop
    simpa using stop

theorem cutString_append_lineFeed {rest : Text} (h : (cutString rest).1.form ≠ .openString) :
    cutString (rest ++ Symbol.lineFeed :: b) =
      ((cutString rest).1, (cutString rest).2 ++ Symbol.lineFeed :: b) := by
  have closed : (span (· != Symbol.quote) rest).2 ≠ [] := by
    intro none
    apply h
    unfold cutString
    generalize span (· != Symbol.quote) rest = parts at none
    obtain ⟨body, after⟩ := parts
    subst none
    rfl
  have joined := span_append_lineFeed b (.inl closed)
  unfold cutString
  rw [joined]
  generalize span (· != Symbol.quote) rest = parts at closed
  obtain ⟨body, after⟩ := parts
  cases after with
  | nil => exact absurd rfl closed
  | cons q after => rfl

theorem cutNumber_append_lineFeed (first : Symbol) (rest : Text) :
    cutNumber first (rest ++ Symbol.lineFeed :: b) =
      ((cutNumber first rest).1, (cutNumber first rest).2 ++ Symbol.lineFeed :: b) := by
  have noDigit : Symbol.lineFeed.isDigit = false := by decide
  have noPoint : Symbol.lineFeed ≠ Symbol.point := by decide
  have joined : ∀ t : Text, span Symbol.isDigit (t ++ Symbol.lineFeed :: b) =
      ((span Symbol.isDigit t).1, (span Symbol.isDigit t).2 ++ Symbol.lineFeed :: b) :=
    fun t => span_append_lineFeed b (.inr noDigit)
  unfold cutNumber
  rw [joined]
  generalize span Symbol.isDigit rest = parts
  obtain ⟨whole, after⟩ := parts
  match after with
  | [] => cases b <;> simp [noPoint]
  | [p] => simp [noDigit]
  | p :: d :: more =>
    simp only [List.cons_append, joined more]
    split <;> rfl

theorem cutRun_append_lineFeed {form : Form} {test : Symbol → Bool} (first : Symbol) (rest : Text)
    (h : test Symbol.lineFeed = false) :
    cutRun form test first (rest ++ Symbol.lineFeed :: b) =
      ((cutRun form test first rest).1,
        (cutRun form test first rest).2 ++ Symbol.lineFeed :: b) := by
  simp only [cutRun, span_append_lineFeed b (.inr h)]

theorem cutMark_append_lineFeed (first : Symbol) (rest : Text) :
    cutMark first (rest ++ Symbol.lineFeed :: b) =
      ((cutMark first rest).1, (cutMark first rest).2 ++ Symbol.lineFeed :: b) := by
  have single : ∀ rest, cutSymbol first (rest ++ Symbol.lineFeed :: b) =
      ((cutSymbol first rest).1, (cutSymbol first rest).2 ++ Symbol.lineFeed :: b) := by
    intro rest
    unfold cutSymbol
    split <;> rfl
  cases rest with
  | nil =>
    have noPair : Token.Kind.ofPair? first Symbol.lineFeed = none :=
      Symbol.ofPair?_eq_none (by decide)
    simp only [List.nil_append, cutMark, noPair]
    exact single []
  | cons second after =>
    simp only [List.cons_append, cutMark]
    cases Token.Kind.ofPair? first second with
    | some kind => rfl
    | none => exact single (second :: after)

theorem opensComment_append_lineFeed (first : Symbol) (rest : Text) :
    opensComment first (rest ++ Symbol.lineFeed :: b) = opensComment first rest := by
  cases rest with
  | nil => simp [opensComment, Symbol.lineFeed]
  | cons s rest => rfl

/-- A line feed behind a source changes no first piece that is no open string. -/
theorem cut_append_lineFeed {first : Symbol} {rest : Text}
    (h : (cut first rest).1.form ≠ .openString) :
    cut first (rest ++ Symbol.lineFeed :: b) =
      ((cut first rest).1, (cut first rest).2 ++ Symbol.lineFeed :: b) := by
  unfold cut at h ⊢
  rw [opensComment_append_lineFeed]
  split
  · rename_i quote
    rw [if_pos quote] at h
    exact cutString_append_lineFeed b h
  split
  · exact cutNumber_append_lineFeed b first rest
  split
  · exact cutRun_append_lineFeed b first rest (by decide)
  split
  · exact cutRun_append_lineFeed b first rest (by decide)
  split
  · rfl
  split
  · exact cutRun_append_lineFeed b first rest (by decide)
  · exact cutMark_append_lineFeed b first rest

end Piece

/-- Unless a source ends inside a string, a line feed separates its pieces from those of what
follows. -/
theorem Text.pieces_append_lineFeed (a b : Text)
    (closed : ∀ piece ∈ a.pieces, piece.form ≠ .openString) :
    (a ++ Symbol.lineFeed :: b).pieces =
      a.pieces ++ ⟨.newline, [Symbol.lineFeed]⟩ :: b.pieces := by
  fun_induction Text.pieces a with
  | case1 => rw [List.nil_append, pieces, Piece.cut_of_lineFeed, List.nil_append]
  | case2 first rest ih =>
    have here := Piece.cut_append_lineFeed b (closed _ List.mem_cons_self)
    rw [List.cons_append, pieces, here,
      ih fun piece hp => closed piece (List.mem_cons_of_mem _ hp), List.cons_append]

/-! ## §2 Positions -/

/-- The relocation that moves everything down by so many lines. -/
def Relocation.down (n : Nat) : Relocation := ⟨(· + n), id⟩

/-- The position so many lines further down. -/
def Position.down (n : Nat) (p : Position) : Position := ⟨p.line + n, p.column⟩

namespace Position

variable (n : Nat) (p : Position)

theorem step_down (s : Symbol) : (p.down n).step s = (p.step s).down n := by
  unfold step
  split
  · simp only [down, Position.mk.injEq, and_true]
    omega
  · rfl

theorem advance_down (t : Text) : (p.down n).advance t = (p.advance t).down n := by
  induction t generalizing p with
  | nil => rfl
  | cons s t ih =>
    show ((p.down n).step s).advance t = ((p.step s).advance t).down n
    rw [step_down, ih]

/-- Behind a line feed a source goes on like a new one, but for its lines. -/
theorem advance_line (t : Text) :
    start.advance (Text.line t) = start.down (t.lineFeeds + 1) := by
  rw [Text.line, advance_append]
  show (start.advance t).step Symbol.lineFeed = _
  rw [step, if_pos rfl, line_advance]
  simp only [down, start, Position.mk.injEq, and_true]
  omega

end Position

namespace Piece

variable (n : Nat) (p : Position)

theorem token?_down (piece : Piece) :
    piece.token? (p.down n) = (piece.token? p).map (Token.relocate (.down n)) := by
  unfold token? tokenIn?
  rw [Position.advance_down, Option.map_map]
  rfl

theorem diagnostic?_down (piece : Piece) :
    piece.diagnostic? (p.down n) = (piece.diagnostic? p).map (Diagnostic.relocate (.down n)) := by
  unfold diagnostic? diagnosticIn?
  rw [Position.advance_down, Option.map_map]
  rfl

theorem located_append (ps qs : List Piece) :
    located p (ps ++ qs) = located p ps ++ located (p.advance (ps.flatMap text)) qs := by
  induction ps generalizing p with
  | nil => rfl
  | cons piece ps ih =>
    rw [List.cons_append, located, located, ih, List.flatMap_cons, Position.advance_append,
      List.cons_append]

/-- What is made of pieces further down is moved down, if that is so for each piece. -/
theorem filterMap_located_down {β : Type} {f : Position → Piece → Option β} {g : β → β}
    (h : ∀ p piece, f (p.down n) piece = (f p piece).map g) (pieces : List Piece) :
    ((located (p.down n) pieces).filterMap fun (q, piece) => f q piece) =
      ((located p pieces).filterMap fun (q, piece) => f q piece).map g := by
  induction pieces generalizing p with
  | nil => rfl
  | cons piece rest ih =>
    have ih := ih (p.advance piece.text)
    rw [← Position.advance_down] at ih
    simp only [located, List.filterMap_cons, h, ih]
    cases f p piece <;> rfl

end Piece

/-! ## §3 Tokens and diagnostics -/

/-- A source that ends inside a string is reported for it. -/
theorem Text.closed_of_diagnostics {a : Text}
    (h : ∀ d ∈ a.lex.diagnostics, d.complaint ≠ .unterminatedString) :
    ∀ piece ∈ a.pieces, piece.form ≠ .openString := by
  intro piece mem isOpen
  have complaints : a.lex.diagnostics.map Diagnostic.complaint =
      a.pieces.filterMap Piece.complaint? := by
    rw [diagnostics_lex]
    exact Piece.map_filterMap_located Piece.map_complaint_diagnostic? .start a.pieces
  have reported : Complaint.unterminatedString ∈ a.pieces.filterMap Piece.complaint? :=
    List.mem_filterMap.mpr ⟨piece, mem, by rw [Piece.complaint?, isOpen]⟩
  rw [← complaints] at reported
  obtain ⟨d, hd, hc⟩ := List.mem_map.mp reported
  exact h d hd hc

/-- **A line feed separates sources.** Unless the first of two sources ends inside a string, joining
them by a line feed gives the tokens and the diagnostics of both, those of the second further
down. -/
theorem Text.lex_append_lineFeed (a b : Text)
    (h : ∀ d ∈ a.lex.diagnostics, d.complaint ≠ .unterminatedString) :
    (a ++ Symbol.lineFeed :: b).lex =
      { tokens := a.lex.tokens ++ (b.lex.relocate (.down (a.lineFeeds + 1))).tokens
        last := b.lex.last.relocate (.down (a.lineFeeds + 1))
        diagnostics :=
          a.lex.diagnostics ++ (b.lex.relocate (.down (a.lineFeeds + 1))).diagnostics } := by
  have pieces := pieces_append_lineFeed a b (closed_of_diagnostics h)
  have below : (Position.start.advance a).advance [Symbol.lineFeed] =
      Position.start.down (a.lineFeeds + 1) := by
    rw [← Position.advance_append]
    exact Position.advance_line a
  have located : Piece.located .start (a ++ Symbol.lineFeed :: b).pieces =
      Piece.located .start a.pieces ++ (Position.start.advance a, ⟨.newline, [Symbol.lineFeed]⟩) ::
        Piece.located (Position.start.down (a.lineFeeds + 1)) b.pieces := by
    rw [pieces, Piece.located_append, flatMap_pieces, Piece.located, below]
  have last : (Position.start.advance (a ++ Symbol.lineFeed :: b)).line =
      (Position.start.advance b).line + (a.lineFeeds + 1 : Nat) := by
    rw [List.append_cons, Position.advance_append, Position.advance_append, below,
      Position.advance_down]
    rfl
  simp only [lex_eq_located, located, last, List.filterMap_append, List.filterMap_cons]
  simp only [Piece.filterMap_located_down _ _ (Piece.token?_down _),
    Piece.filterMap_located_down _ _ (Piece.diagnostic?_down _)]
  rfl

/-- **Reading composes across a line feed.** Unless the first of two sources ends inside a string,
the tokens of both joined by a line feed are those of the first without the mark of its end, and
then those of the second with nothing changed but their lines. The diagnostics are those of the
first and then those of the second, moved down likewise. -/
theorem Text.lex_composes (a b : Text)
    (closed : ∀ d ∈ a.lex.diagnostics, d.complaint ≠ .unterminatedString) :
    (a ++ Symbol.lineFeed :: b).lex.all =
      a.lex.all.dropLast ++
        b.lex.all.map (fun t => { t with line := t.line + (1 + a.lineFeeds) }) ∧
    (a ++ Symbol.lineFeed :: b).lex.diagnostics =
      a.lex.diagnostics ++
        b.lex.diagnostics.map (fun d => { d with line := d.line + (1 + a.lineFeeds) }) := by
  have lines : ∀ line : Int, line + (a.lineFeeds + 1 : Nat) = line + (1 + a.lineFeeds) := by
    intro line
    omega
  have moved : Token.relocate (.down (a.lineFeeds + 1)) =
      fun t => { t with line := t.line + (1 + a.lineFeeds) } := by
    funext t
    rw [← lines]
    rfl
  have noted : Diagnostic.relocate (.down (a.lineFeeds + 1)) =
      fun d => { d with line := d.line + (1 + a.lineFeeds) } := by
    funext d
    rw [← lines]
    rfl
  rw [lex_append_lineFeed a b closed]
  constructor
  · simp only [Lexed.all, Lexed.relocate, List.dropLast_concat, List.map_append, List.map_cons,
      List.map_nil, moved, List.append_assoc]
  · simp only [Lexed.relocate, noted]

/-- A source with a string over two lines and a symbol that starts nothing, which ends in a comment
with a quote. -/
def Text.seamedSource : Text := "\"x\ny\" @ // \"c"

/-- The quote in the comment opens no string that could go on behind the line feed, and the second
source may end inside a string. -/
theorem Text.lex_composes_seamed :
    (∀ d ∈ seamedSource.lex.diagnostics, d.complaint ≠ .unterminatedString) ∧
    (seamedSource ++ Symbol.lineFeed :: "  a \"o\n" : Text).lex.all =
      [⟨.string, "\"x\ny\"", some (.string "x\ny"), 2, 0⟩, ⟨.name, "a", none, 3, 2⟩, .ending 4] ∧
    (seamedSource ++ Symbol.lineFeed :: "  a \"o\n" : Text).lex.diagnostics =
      [.inLine 2 .unexpectedCharacter, .inLine 4 .unterminatedString] := by
  have closed : ∀ d ∈ seamedSource.lex.diagnostics, d.complaint ≠ .unterminatedString := by
    decide +kernel
  obtain ⟨tokens, diagnostics⟩ := lex_composes seamedSource "  a \"o\n" closed
  rw [tokens, diagnostics]
  exact ⟨closed, by decide +kernel, by decide +kernel⟩

end Scriptlet
