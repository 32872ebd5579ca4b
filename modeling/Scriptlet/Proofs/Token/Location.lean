/-
Scriptlet.Proofs.Token.Location — where in its source something stands.

The pieces of a source lie one behind the other, and each has the position behind
everything before it (`located_split`). From that every token and every diagnostic
has one of the lines of its source: lines are counted from one, and there is one
more of them than there are line feeds (`hasLine_of_mem_parse`).

  §1 Pieces in their source.
  §2 Lines and columns of a source.
  §3 Lines of tokens and diagnostics.
-/
import Scriptlet.Proofs.Token.Seam
import Scriptlet.Proofs.Tree.Recovery

namespace Scriptlet

/-! ## §1 Pieces in their source -/

/-- A piece with its position stands behind the pieces before it. -/
theorem Piece.located_split {p q : Position} {pieces : List Piece} {piece : Piece}
    {before after : List (Position × Piece)}
    (h : located p pieces = before ++ (q, piece) :: after) :
    pieces = before.map Prod.snd ++ piece :: after.map Prod.snd ∧
      q = p.advance ((before.map Prod.snd).flatMap text) := by
  induction before generalizing p pieces with
  | nil =>
    cases pieces with
    | nil => cases h
    | cons first rest =>
      rw [located, List.nil_append, List.cons.injEq, Prod.mk.injEq] at h
      obtain ⟨⟨rfl, rfl⟩, rfl⟩ := h
      exact ⟨by simp [map_snd_located], rfl⟩
  | cons entry before ih =>
    cases pieces with
    | nil => cases h
    | cons first rest =>
      rw [located, List.cons_append, List.cons.injEq] at h
      obtain ⟨rfl, h⟩ := h
      obtain ⟨rfl, rfl⟩ := ih h
      exact ⟨rfl, by simp [Position.advance_append]⟩

namespace Text

/-- A piece with its position is a slice of the source at that position. -/
theorem slice_of_mem_located {source : Text} {p : Position} {piece : Piece}
    (h : (p, piece) ∈ Piece.located .start source.pieces) :
    ∃ before after, source = before ++ piece.text ++ after ∧
      p = Position.start.advance before := by
  obtain ⟨before, after, split⟩ := List.append_of_mem h
  obtain ⟨pieces, position⟩ := Piece.located_split split
  refine ⟨(before.map Prod.snd).flatMap Piece.text, (after.map Prod.snd).flatMap Piece.text, ?_,
    position⟩
  conv => lhs; rw [← flatMap_pieces source, pieces]
  simp

/-! ## §2 Lines and columns of a source -/

/-- Is a number that of a line? Lines are counted from one. -/
def HasLine (t : Text) (line : Int) : Prop := 1 ≤ line ∧ line ≤ t.lineFeeds + 1

theorem lineFeeds_append (t u : Text) : (t ++ u).lineFeeds = t.lineFeeds + u.lineFeeds :=
  List.count_append

/-- Behind any part of a source is a line of it. -/
theorem hasLine_advance (before after : Text) :
    (before ++ after).HasLine (Position.start.advance before).line := by
  rw [Position.line_advance, HasLine, lineFeeds_append]
  simp only [Position.start]
  omega

/-- The symbols of a text behind its last line feed. -/
def lastLine : Text → Text
  | [] => []
  | s :: rest => if Symbol.lineFeed ∈ s :: rest then lastLine rest else s :: rest

theorem lastLine_of_not_mem {t : Text} (h : Symbol.lineFeed ∉ t) : t.lastLine = t := by
  cases t with
  | nil => rfl
  | cons s rest => rw [lastLine, if_neg h]

theorem lastLine_cons_of_mem {s : Symbol} {rest : Text} (h : Symbol.lineFeed ∈ s :: rest) :
    lastLine (s :: rest) = rest.lastLine := by
  rw [lastLine, if_pos h]

theorem lastLine_suffix (t : Text) : t.lastLine <:+ t := by
  induction t with
  | nil => exact List.suffix_rfl
  | cons s rest ih =>
    rw [lastLine]
    split
    · exact ih.trans (List.suffix_cons s rest)
    · exact List.suffix_rfl

theorem lineFeeds_cons_lineFeed (t : Text) :
    lineFeeds (Symbol.lineFeed :: t) = t.lineFeeds + 1 :=
  List.count_cons_self

theorem lineFeeds_cons_of_ne {s : Symbol} (h : s ≠ Symbol.lineFeed) (t : Text) :
    lineFeeds (s :: t) = t.lineFeeds :=
  List.count_cons_of_ne h

theorem column_advance (p : Position) (t : Text) :
    (p.advance t).column =
      if Symbol.lineFeed ∈ t then t.lastLine.length else p.column + t.length := by
  induction t generalizing p with
  | nil => simp
  | cons s rest ih =>
    show ((p.step s).advance rest).column = _
    rw [ih, lastLine]
    by_cases feed : s = Symbol.lineFeed
    · by_cases later : Symbol.lineFeed ∈ rest
      · simp [later]
      · simp [feed, later, Position.step, lastLine_of_not_mem later]
    · by_cases later : Symbol.lineFeed ∈ rest
      · simp [later]
      · simp [Ne.symm feed, feed, later, Position.step]
        omega

/-- A position is left by every symbol. -/
theorem eq_nil_of_advance {p : Position} {t : Text} (h : p.advance t = p) : t = [] := by
  have line := Position.line_advance p t
  have column := column_advance p t
  rw [h] at line column
  have feeds : t.lineFeeds = 0 := by omega
  rw [if_neg (List.count_eq_zero.mp feeds)] at column
  exact List.length_eq_zero_iff.mp (by omega)

/-- Only one part of a source ends at a position. -/
theorem eq_of_advance_eq {t u source : Text} (ht : t <+: source) (hu : u <+: source)
    (same : Position.start.advance t = Position.start.advance u) : t = u := by
  have longer : ∀ {t u : Text}, t <+: u → Position.start.advance t = Position.start.advance u →
      t = u := by
    rintro t _ ⟨rest, rfl⟩ same
    rw [Position.advance_append] at same
    rw [eq_nil_of_advance same.symm, List.append_nil]
  rcases List.prefix_or_prefix_of_prefix ht hu with h | h
  · exact longer h same
  · exact (longer h same.symm).symm

/-- The position behind a text is told by its line feeds and its last line. -/
theorem start_advance (t : Text) :
    Position.start.advance t = ⟨t.lineFeeds + 1, t.lastLine.length⟩ := by
  show Position.mk (Position.start.advance t).line (Position.start.advance t).column = _
  rw [Position.line_advance, column_advance]
  split
  · simp [Position.start, Int.add_comm]
  · next noFeed => simp [Position.start, Int.add_comm, lastLine_of_not_mem noFeed]

theorem hasLine_of_mem_located {source : Text} {p : Position} {piece : Piece}
    (h : (p, piece) ∈ Piece.located .start source.pieces) :
    source.HasLine (p.advance piece.text).line := by
  obtain ⟨before, after, rfl, rfl⟩ := slice_of_mem_located h
  rw [← Position.advance_append]
  exact hasLine_advance (before ++ piece.text) after

end Text

/-! ## §3 Lines of tokens and diagnostics -/

/-- The line of a token is one of its source, also that of the mark of the end. -/
theorem Text.hasLine_of_mem_lex {source : Text} {t : Token} (h : t ∈ source.lex.all) :
    source.HasLine t.line := by
  rcases List.mem_append.mp h with h | h
  · rw [tokens_lex] at h
    obtain ⟨⟨p, piece⟩, mem, made⟩ := List.mem_filterMap.mp h
    obtain ⟨-, -, rfl⟩ := Option.map_eq_some_iff.mp made
    exact hasLine_of_mem_located mem
  · rw [last_lex] at h
    obtain rfl := List.mem_singleton.mp h
    have behind := hasLine_advance source []
    rwa [List.append_nil] at behind

theorem Lexed.tokenAt_mem_all (l : Lexed) (q : Nat) : l.tokenAt q ∈ l.all := by
  rw [tokenAt, List.getD_eq_getElem?_getD, all]
  cases found : l.tokens[q]? with
  | none => simp
  | some t => simp [List.mem_of_getElem? found]

/-- The entries of a program and what is reported about it come from its segments. -/
theorem Lexed.parse_segments (l : Lexed) (budget : Nat) :
    ∃ segments : List Segment,
      l.parse budget =
        (segments.map Segment.entry, segments.flatMap (Segment.diagnostics l)) ∧
      ∀ g ∈ segments, g.Fits l := by
  obtain ⟨segments, s, run, -, fits, -, reported⟩ := Parser.program_segments l budget
  exact ⟨segments, by rw [Lexed.parse, run, ← reported], fits⟩

/-- What is reported about a program is reported at one of its tokens. -/
theorem Lexed.exists_token_of_mem_parse {l : Lexed} {budget : Nat} {d : Diagnostic}
    (h : d ∈ (l.parse budget).2) : ∃ t ∈ l.all, ∃ c, d = .atToken t c := by
  obtain ⟨segments, parsed, fits⟩ := l.parse_segments budget
  rw [parsed] at h
  obtain ⟨g, mem, h⟩ := List.mem_flatMap.mp h
  rcases List.mem_append.mp h with h | h
  · obtain ⟨t, signs, rfl⟩ := List.mem_map.mp h
    have inside : t ∈ l.tokens := List.mem_of_mem_drop (List.mem_of_mem_take
      ((fits g mem).2.2.1 t signs).1)
    exact ⟨t, List.mem_append_left _ inside, _, rfl⟩
  · obtain ⟨⟨e, c⟩, -, rfl⟩ := List.mem_map.mp h
    exact ⟨l.tokenAt e, l.tokenAt_mem_all e, c, rfl⟩

/-- Whatever is reported about a source is reported in one of its lines. -/
theorem Text.hasLine_of_mem_parse {source : Text} {d : Diagnostic}
    (h : d ∈ source.parse.diagnostics) : source.HasLine d.line := by
  rcases List.mem_append.mp h with h | h
  · rw [diagnostics_lex] at h
    obtain ⟨⟨p, piece⟩, mem, made⟩ := List.mem_filterMap.mp h
    obtain ⟨c, -, rfl⟩ := Option.map_eq_some_iff.mp made
    exact hasLine_of_mem_located mem
  · obtain ⟨t, mem, c, rfl⟩ := Lexed.exists_token_of_mem_parse h
    exact hasLine_of_mem_lex mem

end Scriptlet
