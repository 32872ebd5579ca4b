/-
Scriptlet.Proofs.Token.Layout — a source read apart from its layout.

The layout of a source is what stands between its tokens: white space and
comments. Blanks, line feeds and comments are pieces too, but silent ones: tokens
and diagnostics come from the others, the significant pieces, alone
(`map_word_lex`, `map_complaint_lex`). A source may be written anew by putting
its lexemes down in order with separators between them. The significant pieces of
the new source are then those of the old one (`significant_of_reformats`), since
white space ends every lexeme.

  §1 Separators.
  §2 Significant pieces.
  §3 Lexemes put down anew.
-/
import Mathlib.Data.List.Basic
import Scriptlet.Proofs.Token.Counter

namespace Scriptlet

open Token (Kind)

/-! ## §1 Separators -/

/-- White space and comments, each comment with the line feed that ends it. -/
inductive Filler : Text → Prop where
  | nil : Filler []
  | white {s : Symbol} {t : Text} (isWhite : s.isWhite = true) (rest : Filler t) :
      Filler (s :: t)
  | comment {body t : Text} (inLine : Symbol.lineFeed ∉ body) (rest : Filler t) :
      Filler (.char '/' :: .char '/' :: (body ++ Symbol.lineFeed :: t))

/-- What may stand between two lexemes: white space, and then more of it and comments. -/
def Separator (t : Text) : Prop := ∃ s rest, t = s :: rest ∧ s.isWhite = true ∧ Filler rest

/-- `Spread lexemes t`: the text `t` is made of the lexemes in order with separators between them,
and perhaps one behind the last. -/
inductive Spread : List Text → Text → Prop where
  | nil : Spread [] []
  | last {lexeme after : Text} (ends : after = [] ∨ Separator after) :
      Spread [lexeme] (lexeme ++ after)
  | cons {lexeme between t : Text} {lexemes : List Text} (separates : Separator between)
      (others : Spread lexemes t) : Spread (lexeme :: lexemes) (lexeme ++ (between ++ t))

/-- `Reformats lexemes t`: the text `t` is made of the lexemes in order with separators between
them, and perhaps with white space and comments before the first and behind the last. -/
def Reformats (lexemes : List Text) (t : Text) : Prop :=
  ∃ before spread, t = before ++ spread ∧ Filler before ∧ Spread lexemes spread

theorem Separator.stops {sep : Text} (h : Separator sep) (t : Text) : Text.Stops (sep ++ t) := by
  obtain ⟨s, rest, rfl, isWhite, -⟩ := h
  intro a ha
  rw [List.cons_append, List.head?_cons, Option.mem_some_iff] at ha
  rw [← ha]
  exact isWhite

theorem Separator.filler {sep : Text} (h : Separator sep) : Filler sep := by
  obtain ⟨s, rest, rfl, isWhite, filler⟩ := h
  exact .white isWhite filler

/-! ## §2 Significant pieces -/

/-- The forms of which layout is made. -/
def Piece.Form.isSilent : Piece.Form → Bool
  | .comment | .newline | .blank => true
  | .string | .openString | .number | .word | .mark _ | .unknown => false

theorem Piece.Form.isSilent_of_isToken {form : Piece.Form} (h : form.isToken = true) :
    form.isSilent = false := by
  cases form with
  | string | number | word | mark => rfl
  | openString | comment | newline | blank | unknown => cases h

/-- The pieces of a source that are no layout. -/
def Text.significant (source : Text) : List Piece :=
  source.pieces.filter fun piece => !piece.form.isSilent

/-- What a token is apart from its place: its kind, its lexeme and its literal. -/
def Token.word (t : Token) : Kind × Text × Option Token.Literal := (t.kind, t.lexeme, t.literal)

namespace Piece

/-- What the token of a piece is apart from its place. -/
def word? (piece : Piece) : Option (Kind × Text × Option Token.Literal) :=
  piece.meaning?.map fun (kind, literal) => (kind, piece.text, literal)

theorem word?_of_isSilent {piece : Piece} (h : piece.form.isSilent = true) :
    piece.word? = none := by
  obtain ⟨form, text⟩ := piece
  cases form with
  | comment | newline | blank => rfl
  | string | openString | number | word | mark | unknown => cases h

theorem complaint?_of_isSilent {piece : Piece} (h : piece.form.isSilent = true) :
    piece.complaint? = none := by
  obtain ⟨form, text⟩ := piece
  cases form with
  | comment | newline | blank => rfl
  | string | openString | number | word | mark | unknown => cases h

/-- A significant piece becomes a token or a diagnostic, and what becomes a token is its text. -/
theorem isToken_of_complaint? {piece : Piece} (loud : piece.form.isSilent = false)
    (fine : piece.complaint? = none) :
    piece.form.isToken = true ∧ piece.word?.map (·.2.1) = some piece.text := by
  obtain ⟨form, text⟩ := piece
  cases form with
  | string | number | word | mark => exact ⟨rfl, rfl⟩
  | openString | unknown => simp [complaint?] at fine
  | comment | newline | blank => cases loud

theorem map_snd_located (p : Position) (pieces : List Piece) :
    (located p pieces).map Prod.snd = pieces := by
  induction pieces generalizing p with
  | nil => rfl
  | cons piece rest ih => exact congrArg (piece :: ·) (ih _)

/-- What is made of the pieces and does not look at their positions is made of the pieces alone. -/
theorem map_filterMap_located {β γ : Type} {f : Position → Piece → Option β} {g : β → γ}
    {h : Piece → Option γ} (hf : ∀ p piece, (f p piece).map g = h piece) (p : Position)
    (pieces : List Piece) :
    ((located p pieces).filterMap fun (q, piece) => f q piece).map g = pieces.filterMap h := by
  have apart : (fun x : Position × Piece => (f x.1 x.2).map g) = h ∘ Prod.snd :=
    funext fun x => hf x.1 x.2
  calc ((located p pieces).filterMap fun (q, piece) => f q piece).map g
      = (located p pieces).filterMap (h ∘ Prod.snd) := by
        rw [List.map_filterMap, ← apart]
    _ = ((located p pieces).map Prod.snd).filterMap h := (List.filterMap_map ..).symm
    _ = pieces.filterMap h := by rw [map_snd_located]

theorem map_word_token? (p : Position) (piece : Piece) :
    (piece.token? p).map Token.word = piece.word? := by
  unfold token? tokenIn? word?
  rw [Option.map_map]
  rfl

theorem map_complaint_diagnostic? (p : Position) (piece : Piece) :
    (piece.diagnostic? p).map Diagnostic.complaint = piece.complaint? := by
  unfold diagnostic? diagnosticIn?
  rw [Option.map_map]
  exact Option.map_id_apply

/-- Silent pieces add nothing. -/
theorem filterMap_filter_isSilent {β : Type} {f : Piece → Option β}
    (silent : ∀ piece, piece.form.isSilent = true → f piece = none) (pieces : List Piece) :
    (pieces.filter fun piece => !piece.form.isSilent).filterMap f = pieces.filterMap f := by
  rw [List.filterMap_filter]
  congr 1
  funext piece
  cases h : piece.form.isSilent with
  | true => exact (silent piece h).symm
  | false => rfl

end Piece

/-- The tokens of a source, apart from their places, come from its significant pieces. -/
theorem Text.map_word_lex (source : Text) :
    source.lex.tokens.map Token.word = source.significant.filterMap Piece.word? := by
  rw [significant, Piece.filterMap_filter_isSilent fun _ => Piece.word?_of_isSilent,
    tokens_lex]
  exact Piece.map_filterMap_located Piece.map_word_token? .start source.pieces

/-- What is wrong with a source comes from its significant pieces. -/
theorem Text.map_complaint_lex (source : Text) :
    source.lex.diagnostics.map Diagnostic.complaint =
      source.significant.filterMap Piece.complaint? := by
  rw [significant, Piece.filterMap_filter_isSilent fun _ => Piece.complaint?_of_isSilent,
    diagnostics_lex]
  exact Piece.map_filterMap_located Piece.map_complaint_diagnostic? .start source.pieces

/-! ## §3 Lexemes put down anew -/

namespace Piece

theorem cut_of_lineFeed (rest : Text) :
    cut Symbol.lineFeed rest = (⟨.newline, [Symbol.lineFeed]⟩, rest) := by
  rfl

theorem cut_of_blank {s : Symbol} (h : s.isBlank = true) (rest : Text) :
    cut s rest = cutRun .blank Symbol.isBlank s rest := by
  have white : s.isWhite = true := by rw [Symbol.isWhite, h, Bool.true_or]
  have each : ∀ a ∈ [Symbol.char ' ', .char '\t', .char '\r', .char '\n'],
      a ≠ Symbol.quote ∧ a.isDigit = false ∧ a.isWordStart = false ∧ a ≠ .char '/' := by
    decide
  obtain ⟨noQuote, noDigit, noStart, noSlash⟩ := each s (Symbol.mem_of_isWhite white)
  have noFeed : s ≠ Symbol.lineFeed := by
    rintro rfl
    exact absurd h (by decide)
  simp [cut, noQuote, noDigit, noStart, opensComment, noSlash, noFeed, h]

theorem cut_of_comment {body : Text} (inLine : Symbol.lineFeed ∉ body) (rest : Text) :
    cut (.char '/') (.char '/' :: (body ++ Symbol.lineFeed :: rest)) =
      (⟨.comment, .char '/' :: .char '/' :: body⟩, Symbol.lineFeed :: rest) := by
  have inner : ∀ s ∈ .char '/' :: body, (s != Symbol.lineFeed) = true :=
    List.forall_mem_cons.mpr ⟨by decide, bne_of_not_mem inLine⟩
  have stop : ∀ s ∈ (Symbol.lineFeed :: rest).head?, (s != Symbol.lineFeed) = false := by simp
  have hc : cut (.char '/') (.char '/' :: (body ++ Symbol.lineFeed :: rest)) =
      cutRun .comment (· != Symbol.lineFeed) (.char '/')
        (.char '/' :: body ++ Symbol.lineFeed :: rest) := rfl
  rw [hc, cutRun, span_eq inner stop]

end Piece

namespace Text

theorem significant_nil : significant [] = [] := by
  rw [significant, pieces, List.filter_nil]

/-- A silent piece at the start of a source is no significant one. -/
theorem significant_of_silent {first : Symbol} {rest after : Text} {piece : Piece}
    (hc : Piece.cut first rest = (piece, after)) (silent : piece.form.isSilent = true) :
    significant (first :: rest) = significant after := by
  rw [significant, pieces, hc, List.filter_cons_of_neg (by simp [silent])]
  rfl

theorem significant_of_blank {s : Symbol} (h : s.isBlank = true) (t : Text) :
    significant (s :: t) = significant (t.dropWhile Symbol.isBlank) :=
  significant_of_silent (Piece.cut_of_blank h t) rfl

theorem significant_dropWhile_isBlank (t : Text) :
    significant (t.dropWhile Symbol.isBlank) = significant t := by
  cases t with
  | nil => rfl
  | cons s t =>
    cases h : s.isBlank with
    | true => rw [List.dropWhile_cons_of_pos h, significant_of_blank h]
    | false => rw [List.dropWhile_cons_of_neg (by simp [h])]

/-- White space at the start of a source changes no significant piece. -/
theorem significant_of_white {s : Symbol} (h : s.isWhite = true) (t : Text) :
    significant (s :: t) = significant t := by
  rw [Symbol.isWhite, Bool.or_eq_true, beq_iff_eq] at h
  rcases h with h | rfl
  · rw [significant_of_blank h, significant_dropWhile_isBlank]
  · exact significant_of_silent (Piece.cut_of_lineFeed t) rfl

/-- Nor does anything else that may stand between lexemes. -/
theorem significant_filler_append {filler : Text} (h : Filler filler) (t : Text) :
    significant (filler ++ t) = significant t := by
  induction h with
  | nil => rfl
  | white isWhite _ ih => rw [List.cons_append, significant_of_white isWhite, ih]
  | @comment body filler inLine _ ih =>
    have hc := Piece.cut_of_comment inLine (filler ++ t)
    rw [List.cons_append, List.cons_append, List.append_assoc, List.cons_append,
      significant_of_silent hc rfl, significant_of_white (by decide), ih]

/-- Before white space, what follows the pattern of a token is the next significant piece. -/
theorem significant_of_matches {piece : Piece} {rest : Text} (token : piece.form.isToken = true)
    (follows : piece.form.Matches piece.text) (stops : rest.Stops) :
    significant (piece.text ++ rest) = piece :: significant rest := by
  have loud := Piece.Form.isSilent_of_isToken token
  rw [significant, pieces_of_matches token follows stops, List.filter_cons_of_pos (by simp [loud])]
  rfl

/-- The significant pieces of lexemes put down with separators between them. -/
theorem significant_of_spread (ps : List Piece) (h : ∀ piece ∈ ps, piece.form.isToken = true ∧
    piece.form.Matches piece.text) : ∀ {t : Text}, Spread (ps.map Piece.text) t →
    significant t = ps := by
  induction ps with
  | nil =>
    intro t spread
    cases spread
    exact significant_nil
  | cons piece rest ih =>
    intro t spread
    obtain ⟨token, follows⟩ := h piece List.mem_cons_self
    have others : ∀ {t : Text}, Spread (rest.map Piece.text) t → significant t = rest :=
      ih fun q hq => h q (List.mem_cons_of_mem _ hq)
    -- white space ends the first lexeme, and what stands up to the next one is silent
    generalize hl : (piece :: rest).map Piece.text = lexemes at spread
    cases spread with
    | nil => cases hl
    | @last lexeme after ends =>
      rw [List.map_cons, List.cons.injEq, List.map_eq_nil_iff] at hl
      obtain ⟨rfl, rfl⟩ := hl
      rcases ends with rfl | separates
      · rw [significant_of_matches token follows (by simp [Stops]), significant_nil]
      · have stops := separates.stops []
        have silent := significant_filler_append separates.filler []
        rw [List.append_nil] at stops silent
        rw [significant_of_matches token follows stops, silent, significant_nil]
    | @cons lexeme between t lexemes separates spread =>
      rw [List.map_cons, List.cons.injEq] at hl
      obtain ⟨rfl, rfl⟩ := hl
      rw [significant_of_matches token follows (separates.stops t),
        significant_filler_append separates.filler, others spread]

theorem matches_of_mem_significant {source : Text} {piece : Piece}
    (h : piece ∈ source.significant) : piece.form.Matches piece.text :=
  source.matches_of_mem_pieces piece (List.mem_filter.mp h).1

/-- If nothing is wrong with a source, its significant pieces become its tokens. -/
theorem isToken_of_mem_significant {source : Text} (quiet : source.lex.diagnostics = [])
    {piece : Piece} (h : piece ∈ source.significant) :
    piece.form.isToken = true ∧ piece.word?.map (·.2.1) = some piece.text := by
  have loud : piece.form.isSilent = false := by simpa using (List.mem_filter.mp h).2
  have complaints := source.map_complaint_lex
  rw [quiet, List.map_nil, eq_comm, List.filterMap_eq_nil_iff] at complaints
  exact Piece.isToken_of_complaint? loud (complaints piece h)

/-- If nothing is wrong with a source, its lexemes are its significant pieces. -/
theorem map_lexeme_lex {source : Text} (quiet : source.lex.diagnostics = []) :
    source.lex.tokens.map Token.lexeme = source.significant.map Piece.text := by
  have texts : ∀ piece ∈ source.significant, piece.word?.map (·.2.1) = some piece.text :=
    fun piece hp => (isToken_of_mem_significant quiet hp).2
  calc source.lex.tokens.map Token.lexeme
      = (source.lex.tokens.map Token.word).map (·.2.1) := by rw [List.map_map]; rfl
    _ = (source.significant.filterMap Piece.word?).map (·.2.1) := by rw [map_word_lex]
    _ = source.significant.map Piece.text := by
        rw [List.map_filterMap]
        exact List.filterMap_eq_map_iff_forall_eq_some.mpr texts

/-- **Layout is silent.** Lexemes of a source put down anew make a source with the same significant
pieces. -/
theorem significant_of_reformats {source other : Text} (quiet : source.lex.diagnostics = [])
    (h : Reformats (source.lex.tokens.map Token.lexeme) other) :
    other.significant = source.significant := by
  obtain ⟨before, text, rfl, filler, spread⟩ := h
  rw [map_lexeme_lex quiet] at spread
  rw [significant_filler_append filler]
  refine significant_of_spread source.significant (fun piece hp => ?_) spread
  exact ⟨(isToken_of_mem_significant quiet hp).1, matches_of_mem_significant hp⟩

/-- Sources with the same significant pieces have the same tokens, apart from their places, and as
little wrong with them. -/
theorem lex_of_significant {source other : Text} (h : other.significant = source.significant) :
    other.lex.tokens.map Token.word = source.lex.tokens.map Token.word ∧
      (source.lex.diagnostics = [] → other.lex.diagnostics = []) := by
  constructor
  · rw [map_word_lex, map_word_lex, h]
  · intro quiet
    have complaints := other.map_complaint_lex
    rw [h, ← map_complaint_lex, quiet] at complaints
    exact List.map_eq_nil_iff.mp complaints

end Text

end Scriptlet
