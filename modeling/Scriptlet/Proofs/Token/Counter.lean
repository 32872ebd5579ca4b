/-
Scriptlet.Proofs.Token.Counter — what the line counter of a reader counts.

A position goes from symbol to symbol, and every line feed begins a new line. The
reader has no such position: it counts at line feeds and strings and passes over
all other pieces. No other piece holds a line feed (`lineFeed_not_mem_of_isFlat`),
so the counter is always at the position it has come to (`At.pass`), and a source
is read as if each of its pieces had its position (`lex_eq_located`).

  §1 Positions.
  §2 Pieces with their positions.
  §3 Where line feeds stand.
  §4 The counter at a position.
-/
import Scriptlet.Proofs.Token.Pattern

namespace Scriptlet

open Token (Kind)

/-! ## §1 Positions -/

/-- A position in a source. -/
structure Position where
  /-- The line, counted from one. -/
  line : Int
  /-- The symbols before the position in its line. -/
  column : Nat
deriving DecidableEq, Repr, Inhabited

namespace Position

/-- Where every source begins. -/
def start : Position := ⟨1, 0⟩

/-- The position behind one more symbol. -/
def step (p : Position) (s : Symbol) : Position :=
  if s = Symbol.lineFeed then ⟨p.line + 1, 0⟩ else ⟨p.line, p.column + 1⟩

/-- The position behind a slice. -/
def advance (p : Position) (t : Text) : Position := t.foldl step p

@[simp] theorem advance_nil (p : Position) : p.advance [] = p := rfl

theorem advance_cons (p : Position) (s : Symbol) (t : Text) :
    p.advance (s :: t) = (p.step s).advance t := rfl

theorem advance_append (p : Position) (t u : Text) :
    p.advance (t ++ u) = (p.advance t).advance u := by
  simp [advance]

/-- A text has as many lines behind its first as it has line feeds. -/
theorem line_advance (p : Position) (t : Text) :
    (p.advance t).line = p.line + t.lineFeeds := by
  induction t generalizing p with
  | nil => simp [Text.lineFeeds]
  | cons s t ih =>
    rw [advance_cons, ih, Text.lineFeeds, Text.lineFeeds, List.count_cons, step]
    by_cases h : s = Symbol.lineFeed
    · simp [h]
      omega
    · simp [h]

/-- Without line feeds only the column moves. -/
theorem advance_of_not_mem {t : Text} (h : Symbol.lineFeed ∉ t) (p : Position) :
    p.advance t = ⟨p.line, p.column + t.length⟩ := by
  induction t generalizing p with
  | nil => rfl
  | cons s t ih =>
    rw [List.mem_cons, not_or] at h
    rw [advance_cons, ih h.2, step, if_neg (Ne.symm h.1), List.length_cons]
    simp only [Position.mk.injEq, true_and]
    omega

end Position

/-! ## §2 Pieces with their positions -/

namespace Piece

/-- The token that a piece at a position becomes. It has the line in which the piece ends and the
column at which it begins. -/
def token? (p : Position) (piece : Piece) : Option Token :=
  piece.tokenIn? (p.advance piece.text).line p.column

/-- The diagnostic that a piece at a position becomes, on the line in which the piece ends. -/
def diagnostic? (p : Position) (piece : Piece) : Option Diagnostic :=
  piece.diagnosticIn? (p.advance piece.text).line

/-- Pieces with their positions, the first of them at `p`. -/
def located (p : Position) : List Piece → List (Position × Piece)
  | [] => []
  | piece :: rest => (p, piece) :: located (p.advance piece.text) rest

/-- A piece with its position is one of the pieces. -/
theorem mem_of_mem_located {p : Position} {pieces : List Piece} {entry : Position × Piece}
    (h : entry ∈ located p pieces) : entry.2 ∈ pieces := by
  induction pieces generalizing p with
  | nil => cases h
  | cons piece rest ih =>
    rcases List.mem_cons.mp h with rfl | h
    · exact List.mem_cons_self
    · exact List.mem_cons_of_mem _ (ih h)

/-- What is made of pieces is what is made of the first and then what is made of the others. -/
theorem filterMap_located_cons {β : Type} (f : Position → Piece → Option β) (p : Position)
    (piece : Piece) (rest : List Piece) :
    ((located p (piece :: rest)).filterMap fun (q, piece) => f q piece) =
      (f p piece).toList ++
        (located (p.advance piece.text) rest).filterMap fun (q, piece) => f q piece := by
  rw [located]
  cases made : f p piece <;> simp [made]

/-! ## §3 Where line feeds stand -/

/-- The forms that hold no line feed. -/
def Form.isFlat : Form → Bool
  | .newline | .string | .openString => false
  | .number | .word | .comment | .mark _ | .blank | .unknown => true

theorem form_cut_lineFeed (rest : Text) : (cut Symbol.lineFeed rest).1.form = .newline := rfl

/-- A line feed is no mark and in no mark. -/
theorem lineFeed_not_mem_mark {kind : Kind} {t : Text} (h : (Form.mark kind).Matches t) :
    Symbol.lineFeed ∉ t := by
  rcases h with ⟨a, rfl, single⟩ | ⟨a, b, rfl, pair⟩
  · intro feed
    obtain rfl := List.mem_singleton.mp feed
    cases single
  · intro feed
    unfold Kind.ofPair? at pair
    split at pair
    all_goals simp_all [Symbol.lineFeed]

theorem lineFeed_isDigit : Symbol.lineFeed.isDigit = false := by decide

/-- A run of symbols that pass a test holds no line feed if a line feed does not pass it. -/
theorem lineFeed_not_mem_run {test : Symbol → Bool} (fails : test Symbol.lineFeed = false)
    {t : Text} (passes : ∀ s ∈ t, test s = true) : Symbol.lineFeed ∉ t := by
  intro feed
  rw [passes _ feed] at fails
  cases fails

/-- Only line feeds and strings are cut off with line feeds in them. -/
theorem lineFeed_not_mem_cut {first : Symbol} {rest : Text}
    (flat : (cut first rest).1.form.isFlat = true) :
    Symbol.lineFeed ∉ (cut first rest).1.text := by
  have follows := cut_matches first rest
  cases form : (cut first rest).1.form with
  | string | openString | newline =>
    rw [form] at flat
    cases flat
  | number =>
    rw [form] at follows
    obtain ⟨d, whole, digit, digits, text | ⟨e, fraction, digit', digits', text⟩⟩ := follows
    · rw [text]
      exact lineFeed_not_mem_run lineFeed_isDigit (List.forall_mem_cons.mpr ⟨digit, digits⟩)
    · rw [text, ← List.cons_append, List.mem_append, not_or]
      refine ⟨lineFeed_not_mem_run lineFeed_isDigit (List.forall_mem_cons.mpr ⟨digit, digits⟩),
        List.not_mem_cons_of_ne_of_not_mem (by decide) ?_⟩
      exact lineFeed_not_mem_run lineFeed_isDigit (List.forall_mem_cons.mpr ⟨digit', digits'⟩)
  | word =>
    rw [form] at follows
    obtain ⟨s, more, text, start, parts⟩ := follows
    have part : s.isWordPart = true := by rw [Symbol.isWordPart, start, Bool.true_or]
    rw [text]
    exact lineFeed_not_mem_run (by decide) (List.forall_mem_cons.mpr ⟨part, parts⟩)
  | comment =>
    rw [form] at follows
    obtain ⟨body, text, noFeed⟩ := follows
    rw [text, List.mem_cons, List.mem_cons, not_or, not_or]
    exact ⟨by decide, by decide, noFeed⟩
  | mark kind =>
    rw [form] at follows
    exact lineFeed_not_mem_mark follows
  | blank =>
    rw [form] at follows
    obtain ⟨s, more, text, blank, blanks⟩ := follows
    rw [text]
    exact lineFeed_not_mem_run (by decide) (List.forall_mem_cons.mpr ⟨blank, blanks⟩)
  | unknown =>
    -- the pattern would allow a line feed, but a line feed is cut off as a new line before
    have head := cut_text_head first rest
    rw [form] at follows
    obtain ⟨a, text, -⟩ := follows
    rw [text] at head ⊢
    obtain rfl := Option.some.inj head
    rw [List.mem_singleton]
    rintro rfl
    rw [form_cut_lineFeed] at form
    cases form

end Piece

/-- Only line feeds and strings hold line feeds. -/
theorem Text.lineFeed_not_mem_of_isFlat {source : Text} {piece : Piece}
    (mem : piece ∈ source.pieces) (flat : piece.form.isFlat = true) :
    Symbol.lineFeed ∉ piece.text := by
  fun_induction pieces source with
  | case1 => cases mem
  | case2 first rest ih =>
    rcases List.mem_cons.mp mem with rfl | mem
    · exact Piece.lineFeed_not_mem_cut flat
    · exact ih mem

/-! ## §4 The counter at a position -/

/-- The last line feed of a slice is what the column behind the slice counts from. -/
theorem Position.column_advance_of_lastIndex? {t : Text} {i : Nat}
    (h : t.lastIndex? Symbol.lineFeed = some i) (p : Position) :
    i + 1 + (p.advance t).column = t.length := by
  induction t generalizing p i with
  | nil => cases h
  | cons s rest ih =>
    rw [advance_cons, List.length_cons]
    rw [Text.lastIndex?] at h
    split at h
    · next j found =>
      obtain rfl := Option.some.inj h
      have behind := ih found (p.step s)
      omega
    · next none =>
      split at h
      · next feed =>
        obtain rfl := Option.some.inj h
        rw [advance_of_not_mem (Text.not_mem_of_lastIndex? none), step, if_pos feed]
        show 0 + 1 + (0 + rest.length) = rest.length + 1
        omega
      · cases h

namespace Counter

/-- `c.At offset p`: at an offset with the position `p`, the counter has the line of `p` and the
offset at which that line begins. -/
structure At (c : Counter) (offset : Nat) (p : Position) : Prop where
  line : c.line = p.line
  column : c.lineStart + p.column = offset

variable {c : Counter} {offset : Nat} {p : Position}

theorem at_start : start.At 0 .start := ⟨rfl, rfl⟩

theorem At.column_eq (h : c.At offset p) : c.column offset = p.column := by
  have column := h.column
  unfold Counter.column
  omega

/-- A slice without line feeds is passed over. -/
theorem At.stay (h : c.At offset p) {t : Text} (flat : Symbol.lineFeed ∉ t) :
    c.At (offset + t.length) (p.advance t) := by
  have column := h.column
  rw [Position.advance_of_not_mem flat]
  refine ⟨h.line, ?_⟩
  show _ + (_ + _) = _
  omega

/-- A slice that is searched for line feeds may hold any number of them. -/
theorem At.skipLines (h : c.At offset p) (t : Text) :
    (c.skipLines offset t).At (offset + t.length) (p.advance t) := by
  unfold Counter.skipLines
  split
  · next i last =>
    have column := Position.column_advance_of_lastIndex? last p
    refine ⟨?_, ?_⟩
    · rw [Position.line_advance, ← h.line]
    · show offset + i + 1 + _ = _
      omega
  · next none => exact h.stay (Text.not_mem_of_lastIndex? none)

/-- **One piece.** The counter comes to the position behind each piece. -/
theorem At.pass (h : c.At offset p) {piece : Piece} (follows : piece.form.Matches piece.text)
    (flat : piece.form.isFlat = true → Symbol.lineFeed ∉ piece.text) :
    (c.pass offset piece).At (offset + piece.text.length) (p.advance piece.text) := by
  unfold Counter.pass
  split
  · next form =>
    rw [form] at follows
    have text : piece.text = [Symbol.lineFeed] := follows
    have here : p.advance [Symbol.lineFeed] = ⟨p.line + 1, 0⟩ := rfl
    rw [text, here]
    exact ⟨congrArg (· + 1) h.line, rfl⟩
  · exact h.skipLines piece.text
  · exact h.skipLines piece.text
  all_goals
    next form => exact h.stay (flat (by rw [form]; rfl))

/-- **All pieces.** Reading gives what the pieces become at their positions, and ends in the line
that they end in. -/
theorem At.read_eq (h : c.At offset p) {pieces : List Piece}
    (follows : ∀ piece ∈ pieces, piece.form.Matches piece.text)
    (flat : ∀ piece ∈ pieces, piece.form.isFlat = true → Symbol.lineFeed ∉ piece.text) :
    c.read offset pieces =
      { tokens := (Piece.located p pieces).filterMap fun (q, piece) => piece.token? q
        last := .ending (p.advance (pieces.flatMap Piece.text)).line
        diagnostics :=
          (Piece.located p pieces).filterMap fun (q, piece) => piece.diagnostic? q } := by
  induction pieces generalizing c offset p with
  | nil => rw [Counter.read, h.line]; rfl
  | cons piece rest ih =>
    rw [List.forall_mem_cons] at follows flat
    have behind := h.pass follows.1 flat.1
    rw [Counter.read, ih behind follows.2 flat.2, behind.line, h.column_eq, List.flatMap_cons,
      Position.advance_append, Piece.filterMap_located_cons Piece.token?,
      Piece.filterMap_located_cons Piece.diagnostic?]
    rfl

end Counter

/-- **Every piece is read at its position.** -/
theorem Text.lex_eq_located (source : Text) :
    source.lex =
      { tokens := (Piece.located .start source.pieces).filterMap fun (p, piece) => piece.token? p
        last := .ending (Position.start.advance source).line
        diagnostics :=
          (Piece.located .start source.pieces).filterMap
            fun (p, piece) => piece.diagnostic? p } := by
  have read := Counter.at_start.read_eq source.matches_of_mem_pieces
    fun _ => source.lineFeed_not_mem_of_isFlat
  rwa [flatMap_pieces] at read

namespace Text

theorem tokens_lex (source : Text) :
    source.lex.tokens =
      (Piece.located .start source.pieces).filterMap fun (p, piece) => piece.token? p :=
  congrArg Lexed.tokens source.lex_eq_located

theorem last_lex (source : Text) :
    source.lex.last = .ending (Position.start.advance source).line :=
  congrArg Lexed.last source.lex_eq_located

theorem kind_last_lex (source : Text) : source.lex.last.kind = .finish := by
  rw [last_lex]
  rfl

theorem diagnostics_lex (source : Text) :
    source.lex.diagnostics =
      (Piece.located .start source.pieces).filterMap fun (p, piece) => piece.diagnostic? p :=
  congrArg Lexed.diagnostics source.lex_eq_located

end Text

end Scriptlet
