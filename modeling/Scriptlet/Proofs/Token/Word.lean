/-
Scriptlet.Proofs.Token.Word — where words begin and end.

A word goes on as long as it can, so no word symbol follows it. One may stand
before it only at the end of a number, for every other piece either ends in some
other symbol or would have gone on with the word (`last_of_cut`). Before the name
of a declaration stands the word that announces it, perhaps with pieces between
them that become no token. A declared name is therefore the whole run of word
symbols at its place (`exists_declared`).

  §1 Next to a word.
  §2 Names of declarations.
-/
import Scriptlet.Proofs.Run.Safety
import Scriptlet.Proofs.Token.Location

namespace Scriptlet

open Token (Kind)

/-! ## §1 Next to a word -/

/-- A word and what stands before and behind it: it is made of word symbols, and there is none next
to it. -/
structure Isolated (before word after : Text) : Prop where
  nonempty : word ≠ []
  inner : ∀ s ∈ word, s.isWordPart = true
  left : ∀ s ∈ before.getLast?, s.isWordPart = false
  right : ∀ s ∈ after.head?, s.isWordPart = false

theorem Isolated.lineFeeds {before word after : Text} (h : Isolated before word after) :
    word.lineFeeds = 0 := by
  refine List.count_eq_zero.mpr fun feed => ?_
  exact absurd (h.inner _ feed) (by decide)

namespace Piece

/-- A word starts as words may start, and all of it are word symbols. -/
theorem wordParts_of_matches {t : Text} (h : Form.word.Matches t) :
    (∀ s ∈ t.head?, s.isWordStart = true) ∧ ∀ s ∈ t, s.isWordPart = true := by
  obtain ⟨first, rest, rfl, start, inner⟩ := h
  refine ⟨by simpa using start, fun s mem => ?_⟩
  rcases List.mem_cons.mp mem with rfl | mem
  · rw [Symbol.isWordPart, start, Bool.true_or]
  · exact inner s mem

theorem isWordPart_of_isBlank {s : Symbol} (h : s.isBlank = true) : s.isWordPart = false :=
  (Symbol.ends_of_isWhite (by rw [Symbol.isWhite, h, Bool.true_or])).2.1

/-- What becomes of a symbol that starts no string, number or word ends in no word symbol. -/
theorem last_of_cutMark {first : Symbol} (noPart : first.isWordPart = false) (rest : Text) :
    ∀ c ∈ (cutMark first rest).1.text.getLast?, c.isWordPart = false := by
  have single : ∀ rest, ∀ c ∈ (cutSymbol first rest).1.text.getLast?, c.isWordPart = false := by
    intro rest c hc
    unfold cutSymbol at hc
    split at hc <;> simp_all
  cases rest with
  | nil => exact single []
  | cons second after =>
    intro c hc
    rw [cutMark] at hc
    split at hc
    · next kind pair =>
      have equals : second = .char '=' := by
        by_contra other
        rw [Symbol.ofPair?_eq_none other] at pair
        cases pair
      simp only [List.getLast?_cons_cons, List.getLast?_singleton, Option.mem_some_iff] at hc
      rw [← hc, equals]
      decide
    · exact single _ c hc

/-- A string ends in its closing quote, and one without has nothing behind it. -/
theorem last_of_cutString {rest : Text} (more : (cutString rest).2 ≠ []) :
    ∀ c ∈ (cutString rest).1.text.getLast?, c.isWordPart = false := by
  have stop := head_span (· != Symbol.quote) rest
  unfold cutString at more ⊢
  generalize span (· != Symbol.quote) rest = parts at stop more
  obtain ⟨body, after⟩ := parts
  cases after with
  | nil => exact absurd rfl more
  | cons q after =>
    intro c hc
    have hq : q = Symbol.quote := by simpa using stop q rfl
    have hc : q = c := by simpa [List.getLast?_cons] using hc
    rw [← hc, hq]
    decide

/-- Before what may start a word, a piece other than a number ends in no word symbol. -/
theorem last_of_cut {first : Symbol} {rest : Text} (noNumber : (cut first rest).1.form ≠ .number)
    {s : Symbol} (next : s ∈ (cut first rest).2.head?) (start : s.isWordStart = true) :
    ∀ c ∈ (cut first rest).1.text.getLast?, c.isWordPart = false := by
  have part : s.isWordPart = true := by rw [Symbol.isWordPart, start, Bool.true_or]
  revert noNumber next
  unfold cut
  split
  · intro _ next
    refine last_of_cutString fun none => ?_
    rw [none] at next
    cases next
  split
  · exact fun noNumber => absurd (form_cutNumber first rest) noNumber
  split
  · -- a word would have gone on
    intro _ next
    rw [head_span Symbol.isWordPart rest s next] at part
    cases part
  split
  · -- a comment ends before a line feed
    intro _ next
    have feed : s = Symbol.lineFeed := by simpa using head_span (· != Symbol.lineFeed) rest s next
    rw [feed] at part
    cases part
  split
  · next feed =>
    intro _ _ c hc
    have hc : first = c := by simpa using hc
    rw [← hc, feed]
    decide
  split
  · next blank =>
    intro _ _ c hc
    apply isWordPart_of_isBlank
    rcases List.mem_cons.mp (List.mem_of_getLast? hc) with rfl | hc
    · exact blank
    · exact mem_span Symbol.isBlank rest c hc
  · next noDigit noStart _ _ _ =>
    intro _ _
    exact last_of_cutMark (by simp [Symbol.isWordPart, noDigit, noStart]) rest

end Piece

namespace Text

/-- The last symbol before a word is that of the piece before it. -/
theorem getLast?_flatMap_concat {ps : List Piece} {last : Piece} (h : last.text ≠ []) :
    ((ps ++ [last]).flatMap Piece.text).getLast? = last.text.getLast? := by
  rw [List.flatMap_append, List.flatMap_singleton, List.getLast?_append_of_ne_nil _ h]

/-- A word behind a piece that is no number stands alone. -/
theorem isolated_of_pieces {source : Text} {ps qs : List Piece} {last piece : Piece}
    (h : source.pieces = ps ++ last :: piece :: qs) (noNumber : last.form ≠ .number)
    (word : Piece.Form.word.Matches piece.text) :
    ∃ after, source = (ps ++ [last]).flatMap Piece.text ++ piece.text ++ after ∧
      Isolated ((ps ++ [last]).flatMap Piece.text) piece.text after := by
  obtain ⟨rest, rfl, cut⟩ := pieces_split h
  obtain ⟨first, more, rfl, rfl, others⟩ := exists_cut_of_pieces cut
  obtain ⟨s, more', remaining, rfl, -⟩ := exists_cut_of_pieces others
  obtain ⟨start, inner⟩ := Piece.wordParts_of_matches word
  have start : s.isWordStart = true := start s (Piece.cut_text_head s more')
  have next : s ∈ (Piece.cut first more).2.head? := by rw [remaining]; rfl
  have source : first :: more =
      (Piece.cut first more).1.text ++ ((Piece.cut s more').1.text ++ (Piece.cut s more').2) := by
    rw [Piece.cut_append s more', ← remaining, Piece.cut_append]
  refine ⟨(Piece.cut s more').2, by rw [source]; simp, ?_, inner, ?_, ?_⟩
  · exact Piece.cut_text_ne_nil s more'
  · rw [getLast?_flatMap_concat (Piece.cut_text_ne_nil first more)]
    exact Piece.last_of_cut noNumber next start
  · rw [Piece.cut_of_isWordStart start]
    exact Piece.head_span Symbol.isWordPart more'

end Text

/-! ## §2 Names of declarations -/

/-- The name of a declaration follows the word that announces it. -/
theorem Declares.exists_name {ts signs : List Token} {name : Token} {initial : Option Expr}
    (h : Declares ts (.var name initial) signs) :
    ∃ word post, ts = word :: name :: post ∧ word.kind = .varWord ∧ name.kind = .name := by
  cases h with
  | var isVar isName isStop => exact ⟨_, _, rfl, isVar, isName⟩
  | varWith isVar isName isEqual initial isStop => exact ⟨_, _, rfl, isVar, isName⟩

/-- The tokens of a segment stand among those of the source. -/
theorem Segment.tokens_split {l : Lexed} {g : Segment} (fits : g.Fits l) :
    l.tokens = l.tokens.take g.start ++ (g.tokens l ++ l.tokens.drop g.stop) := by
  have rest : (l.tokens.drop g.start).drop (g.stop - g.start) = l.tokens.drop g.stop := by
    rw [List.drop_drop, Nat.add_sub_cancel' (Nat.le_of_lt fits.1)]
  rw [tokens, Lexed.slice, ← rest, List.take_append_drop, List.take_append_drop]

theorem Lexed.exists_declaring {l : Lexed} {budget : Nat} {name : Token} {initial : Option Expr}
    (h : some (Stmt.var name initial) ∈ (l.parse budget).1) :
    ∃ pre word post, l.tokens = pre ++ word :: name :: post ∧ word.kind = .varWord ∧
      name.kind = .name := by
  obtain ⟨segments, parsed, fits⟩ := l.parse_segments budget
  rw [parsed] at h
  obtain ⟨g, mem, entry⟩ := List.mem_map.mp h
  have split := Segment.tokens_split (fits g mem)
  obtain ⟨-, -, -, read⟩ := fits g mem
  rw [entry] at read
  cases failure : g.failure with
  | some f => simp [failure] at read
  | none =>
    rw [failure] at read
    obtain ⟨word, post, tokens, isVar, isName⟩ := read.1.exists_name
    rw [tokens] at split
    exact ⟨_, word, post ++ l.tokens.drop g.stop, split, isVar, isName⟩

/-- Right before the piece of a token is the piece of the token before it, or one that becomes no
token. -/
theorem Text.exists_piece_before {source : Text} {pre post : List Token} {word name : Token}
    (tokens : source.lex.tokens = pre ++ word :: name :: post) :
    ∃ before last p piece after,
      Piece.located .start source.pieces = before ++ last :: (p, piece) :: after ∧
      piece.token? p = some name ∧ ∀ t, last.2.token? last.1 = some t → t = word := by
  rw [tokens_lex] at tokens
  obtain ⟨front, others, located, -, made⟩ := List.filterMap_eq_append_iff.mp tokens
  obtain ⟨skipped, entry, others, rfl, -, isWord, made⟩ := List.filterMap_eq_cons_iff.mp made
  obtain ⟨between, ⟨p, piece⟩, after, rfl, silent, isName, -⟩ := List.filterMap_eq_cons_iff.mp made
  rcases List.eq_nil_or_concat between with rfl | ⟨between, last, rfl⟩
  · refine ⟨front ++ skipped, entry, p, piece, after, by simp [located], isName, fun t made => ?_⟩
    exact Option.some.inj (made.symm.trans isWord)
  · refine ⟨front ++ skipped ++ entry :: between, last, p, piece, after, by simp [located], isName,
      fun t made => ?_⟩
    have silent : last.2.token? last.1 = none := silent last (by simp)
    rw [silent] at made
    cases made

/-- A number becomes a token of its kind. -/
theorem Piece.exists_token_of_number {piece : Piece} (h : piece.form = .number) (p : Position) :
    ∃ t, piece.token? p = some t ∧ t.kind = .number := by
  obtain ⟨form, text⟩ := piece
  subst h
  exact ⟨_, rfl, rfl⟩

/-- A declared name is the whole run of word symbols at its place. -/
theorem Text.exists_declared {source : Text} {name : Token} {initial : Option Expr}
    (h : some (Stmt.var name initial) ∈ source.parse.entries) :
    ∃ before after, source = before ++ name.lexeme ++ after ∧
      Position.start.advance before = ⟨name.line, name.column⟩ ∧
      Isolated before name.lexeme after := by
  obtain ⟨pre, word, post, tokens, isVar, isName⟩ := Lexed.exists_declaring h
  have named := source.namesVariable_of_mem_lex name (by rw [tokens]; simp) isName
  obtain ⟨before, last, p, piece, after, located, made, only⟩ := exists_piece_before tokens
  have noNumber : last.2.form ≠ .number := by
    intro isNumber
    obtain ⟨t, became, kind⟩ := Piece.exists_token_of_number isNumber last.1
    rw [only t became, isVar] at kind
    cases kind
  rw [List.append_cons] at located
  obtain ⟨pieces, position⟩ := Piece.located_split located
  obtain ⟨⟨kind, literal⟩, -, rfl⟩ := Option.map_eq_some_iff.mp made
  rw [List.map_append, List.append_assoc] at pieces
  obtain ⟨behind, split, isolated⟩ := isolated_of_pieces pieces noNumber named.2.1
  have sameLine : (p.advance piece.text).line = p.line := by
    rw [Position.line_advance, isolated.lineFeeds]
    exact Int.add_zero _
  rw [List.map_append] at position
  refine ⟨_, behind, split, ?_, isolated⟩
  rw [sameLine]
  exact position.symm

end Scriptlet
