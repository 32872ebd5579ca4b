/-
Scriptlet.Proofs.Token.Pattern — the patterns that pieces of source follow.

Every piece that is cut off a source has the form of one pattern
(`cut_matches`). For the forms that become tokens the converse holds wherever the
text is followed by white space or nothing: it is then cut off as one piece of
that form (`pieces_of_matches`). White space ends every such piece, since none
can go on with it.

  §1 Patterns.
  §2 What is cut follows a pattern.
  §3 What white space ends.
  §4 What follows a pattern is cut.
-/
import Scriptlet.Token.Lexer

namespace Scriptlet

open Token (Kind)

/-! ## §1 Patterns -/

/-- The texts that a pattern covers. -/
def Piece.Form.Matches : Piece.Form → Text → Prop
  | .string, t => ∃ body, t = Symbol.quote :: (body ++ [Symbol.quote]) ∧ Symbol.quote ∉ body
  | .openString, t => ∃ body, t = Symbol.quote :: body ∧ Symbol.quote ∉ body
  | .number, t => ∃ first whole, first.isDigit = true ∧ (∀ s ∈ whole, s.isDigit = true) ∧
      (t = first :: whole ∨ ∃ d fraction, d.isDigit = true ∧ (∀ s ∈ fraction, s.isDigit = true) ∧
        t = first :: (whole ++ Symbol.point :: d :: fraction))
  | .word, t => ∃ first rest, t = first :: rest ∧ first.isWordStart = true ∧
      ∀ s ∈ rest, s.isWordPart = true
  | .comment, t => ∃ body, t = .char '/' :: .char '/' :: body ∧ Symbol.lineFeed ∉ body
  | .mark kind, t => (∃ a, t = [a] ∧ Kind.ofSymbol? a = some kind) ∨
      ∃ a b, t = [a, b] ∧ Kind.ofPair? a b = some kind
  | .newline, t => t = [Symbol.lineFeed]
  | .blank, t => ∃ first rest, t = first :: rest ∧ first.isBlank = true ∧
      ∀ s ∈ rest, s.isBlank = true
  | .unknown, t => ∃ a, t = [a] ∧ Kind.ofSymbol? a = none

/-- The forms that become tokens. -/
def Piece.Form.isToken : Piece.Form → Bool
  | .string | .number | .word | .mark _ => true
  | .openString | .comment | .newline | .blank | .unknown => false

namespace Piece

/-! ## §2 What is cut follows a pattern -/

theorem mem_span (test : Symbol → Bool) (t : Text) : ∀ s ∈ (span test t).1, test s = true :=
  List.all_eq_true.mp List.all_takeWhile

theorem head_span (test : Symbol → Bool) (t : Text) :
    ∀ s ∈ (span test t).2.head?, test s = false := by
  intro s hs
  have hs : (t.dropWhile test).head? = some s := hs
  have := List.head?_dropWhile_not test t
  rw [hs] at this
  exact this

theorem quote_not_mem {body : Text} (h : ∀ s ∈ body, (s != Symbol.quote) = true) :
    Symbol.quote ∉ body := by
  intro hq
  have := h _ hq
  simp at this

theorem cutString_matches (rest : Text) :
    (cutString rest).1.form.Matches (cutString rest).1.text := by
  have inner := mem_span (· != Symbol.quote) rest
  have stop := head_span (· != Symbol.quote) rest
  unfold cutString
  generalize span (· != Symbol.quote) rest = parts at inner stop
  obtain ⟨body, after⟩ := parts
  cases after with
  | nil => exact ⟨body, rfl, quote_not_mem inner⟩
  | cons q after =>
    have hq : q = Symbol.quote := by simpa using stop q rfl
    exact ⟨body, by rw [hq], quote_not_mem inner⟩

theorem cutNumber_matches {first : Symbol} (digit : first.isDigit = true) (rest : Text) :
    (cutNumber first rest).1.form.Matches (cutNumber first rest).1.text := by
  have digits := mem_span Symbol.isDigit rest
  unfold cutNumber
  generalize span Symbol.isDigit rest = parts at digits
  obtain ⟨whole, after⟩ := parts
  match after with
  | [] => exact ⟨first, whole, digit, digits, .inl rfl⟩
  | [p] => exact ⟨first, whole, digit, digits, .inl rfl⟩
  | p :: d :: more =>
    simp only
    split
    · rename_i h
      obtain ⟨rfl, hd⟩ := h
      exact ⟨first, whole, digit, digits, .inr ⟨d, _, hd, mem_span Symbol.isDigit more, rfl⟩⟩
    · exact ⟨first, whole, digit, digits, .inl rfl⟩

theorem form_cutNumber (first : Symbol) (rest : Text) :
    (cutNumber first rest).1.form = .number := by
  unfold cutNumber
  split
  · split <;> rfl
  · rfl

theorem cutMark_matches (first : Symbol) (rest : Text) :
    (cutMark first rest).1.form.Matches (cutMark first rest).1.text := by
  have single : ∀ rest, (cutSymbol first rest).1.form.Matches (cutSymbol first rest).1.text := by
    intro rest
    cases h : Kind.ofSymbol? first with
    | none => rw [cutSymbol, h]; exact ⟨first, rfl, h⟩
    | some kind => rw [cutSymbol, h]; exact .inl ⟨first, rfl, h⟩
  cases rest with
  | nil => exact single []
  | cons second after =>
    cases h : Kind.ofPair? first second with
    | none => rw [cutMark, h]; exact single _
    | some kind => rw [cutMark, h]; exact .inr ⟨first, second, rfl, h⟩

/-- A mark is neither a name nor the end. -/
theorem ne_of_matches_mark {kind : Kind} {t : Text} (h : (Form.mark kind).Matches t) :
    kind ≠ .name ∧ kind ≠ .finish := by
  rcases h with ⟨a, -, single⟩ | ⟨a, b, -, pair⟩
  · unfold Kind.ofSymbol? at single
    split at single <;> simp_all [eq_comm]
  · unfold Kind.ofPair? at pair
    split at pair <;> simp_all [eq_comm]

theorem cutComment_matches {first : Symbol} {rest : Text} (h : opensComment first rest = true) :
    Form.comment.Matches (cutRun .comment (· != Symbol.lineFeed) first rest).1.text := by
  unfold opensComment at h
  rw [Bool.and_eq_true, beq_iff_eq, beq_iff_eq] at h
  obtain ⟨rfl, hh⟩ := h
  obtain ⟨more, rfl⟩ : ∃ more, rest = .char '/' :: more := by
    cases rest with
    | nil => simp at hh
    | cons s more => exact ⟨more, by simpa using hh⟩
  refine ⟨more.takeWhile (· != Symbol.lineFeed), rfl, fun hl => ?_⟩
  have := mem_span (· != Symbol.lineFeed) more _ hl
  simp at this

theorem cut_text_ne_nil (first : Symbol) (rest : Text) : (cut first rest).1.text ≠ [] := by
  intro empty
  have head := cut_text_head first rest
  rw [empty] at head
  cases head

/-- Every piece follows the pattern of its form. -/
theorem cut_matches (first : Symbol) (rest : Text) :
    (cut first rest).1.form.Matches (cut first rest).1.text := by
  unfold cut
  split
  · exact cutString_matches rest
  split
  · rename_i h
    exact cutNumber_matches h rest
  split
  · rename_i h
    exact ⟨first, _, rfl, h, mem_span Symbol.isWordPart rest⟩
  split
  · rename_i h
    exact cutComment_matches h
  split
  · rename_i h
    exact congrArg (· :: []) h
  split
  · rename_i h
    exact ⟨first, _, rfl, h, mem_span Symbol.isBlank rest⟩
  · exact cutMark_matches first rest

end Piece

namespace Text

/-- All pieces of a source follow the patterns of their forms. -/
theorem matches_of_mem_pieces (source : Text) :
    ∀ piece ∈ source.pieces, piece.form.Matches piece.text := by
  fun_induction pieces source with
  | case1 => simp
  | case2 first rest ih =>
    intro piece hp
    rcases List.mem_cons.mp hp with rfl | hp
    · exact Piece.cut_matches first rest
    · exact ih piece hp

/-- The first of the pieces was cut off the source. -/
theorem exists_cut_of_pieces {source : Text} {piece : Piece} {qs : List Piece}
    (h : source.pieces = piece :: qs) :
    ∃ first rest, source = first :: rest ∧ (Piece.cut first rest).1 = piece ∧
      (Piece.cut first rest).2.pieces = qs := by
  cases source with
  | nil => simp [pieces] at h
  | cons first rest =>
    rw [pieces, List.cons.injEq] at h
    exact ⟨first, rest, rfl, h.1, h.2⟩

/-- What follows some of the first pieces of a source is cut as if it stood alone. -/
theorem pieces_split {source : Text} {ps qs : List Piece} (h : source.pieces = ps ++ qs) :
    ∃ rest : Text, source = ps.flatMap Piece.text ++ rest ∧ rest.pieces = qs := by
  induction ps generalizing source with
  | nil => exact ⟨source, rfl, h⟩
  | cons piece ps ih =>
    cases source with
    | nil => simp [pieces] at h
    | cons first rest =>
      rw [pieces, List.cons_append, List.cons.injEq] at h
      obtain ⟨rfl, h⟩ := h
      obtain ⟨remaining, split, cut⟩ := ih h
      refine ⟨remaining, ?_, cut⟩
      rw [List.flatMap_cons, List.append_assoc, ← split, Piece.cut_append]

end Text

/-! ## §3 What white space ends -/

/-- White space: blanks and line feeds. -/
def Symbol.isWhite (s : Symbol) : Bool := s.isBlank || s == Symbol.lineFeed

/-- Nothing, or a text that begins with white space. -/
def Text.Stops (t : Text) : Prop := ∀ s ∈ t.head?, s.isWhite = true

namespace Symbol

/-- The four symbols that are white space. -/
theorem mem_of_isWhite {s : Symbol} (h : s.isWhite = true) :
    s ∈ [Symbol.char ' ', .char '\t', .char '\r', .char '\n'] := by
  cases s with
  | char c => simp_all [isWhite, isBlank, holds, lineFeed, or_assoc]
  | stray b => simp [isWhite, isBlank, holds] at h

/-- White space goes on with no number, word, mark or comment. -/
theorem ends_of_isWhite {s : Symbol} (h : s.isWhite = true) :
    s.isDigit = false ∧ s.isWordPart = false ∧ s ≠ point ∧ s ≠ .char '=' ∧ s ≠ .char '/' := by
  have each : ∀ a ∈ [Symbol.char ' ', .char '\t', .char '\r', .char '\n'],
      a.isDigit = false ∧ a.isWordPart = false ∧ a ≠ point ∧ a ≠ .char '=' ∧ a ≠ .char '/' := by
    decide
  exact each s (mem_of_isWhite h)

/-- Words do not start with a digit. -/
theorem isDigit_of_isWordStart {s : Symbol} (h : s.isWordStart = true) : s.isDigit = false := by
  cases s with
  | stray b => rfl
  | char c =>
    have above : '9'.toNat < c.toNat := by
      have h : ((decide ('A'.val ≤ c.val ∧ c.val ≤ 'Z'.val) ||
          (decide ('a'.val ≤ c.val) && decide (c.val ≤ 'z'.val))) || c == '_') = true := h
      simp only [UInt32.le_iff_toNat_le, Bool.or_eq_true, Bool.and_eq_true, decide_eq_true_eq,
        beq_iff_eq] at h
      rcases h with (h | h) | rfl
      · exact Nat.lt_of_lt_of_le (by decide) h.1
      · exact Nat.lt_of_lt_of_le (by decide) h.1
      · decide
    refine Bool.eq_false_iff.mpr fun digit => ?_
    exact Nat.not_le_of_lt above (Char.isDigit_iff_toNat.mp digit).2

/-- A symbol that is a mark by itself starts nothing else, but that slashes may open a comment. -/
theorem ends_of_ofSymbol? {s : Symbol} {kind : Kind} (h : Kind.ofSymbol? s = some kind) :
    s ≠ quote ∧ s.isDigit = false ∧ s.isWordStart = false ∧ s ≠ lineFeed ∧
      s.isBlank = false := by
  unfold Kind.ofSymbol? at h
  split at h
  case h_16 => simp at h
  all_goals decide

/-- The first symbol of a mark of two is a mark by itself, and not a slash. -/
theorem exists_ofSymbol?_of_ofPair? {a b : Symbol} {kind : Kind}
    (h : Kind.ofPair? a b = some kind) :
    ∃ first, Kind.ofSymbol? a = some first ∧ first ≠ .slash := by
  unfold Kind.ofPair? at h
  split at h
  case h_5 => simp at h
  all_goals exact ⟨_, rfl, by decide⟩

/-- A mark of two symbols has an equals sign in second place. -/
theorem ofPair?_eq_none {a b : Symbol} (h : b ≠ .char '=') : Kind.ofPair? a b = none := by
  unfold Kind.ofPair?
  split
  case h_5 => rfl
  all_goals exact absurd rfl h

end Symbol

/-! ## §4 What follows a pattern is cut -/

namespace Piece

/-- What passes a test is cut off where something follows that does not. -/
theorem span_eq {test : Symbol → Bool} {body rest : Text} (hbody : ∀ s ∈ body, test s = true)
    (hrest : ∀ s ∈ rest.head?, test s = false) : span test (body ++ rest) = (body, rest) := by
  unfold span
  rw [List.takeWhile_append_of_pos hbody, List.dropWhile_append_of_pos hbody]
  cases rest with
  | nil => simp
  | cons s rest => simp [hrest s rfl]

theorem bne_of_not_mem {a : Symbol} {body : Text} (h : a ∉ body) : ∀ s ∈ body, (s != a) = true := by
  intro s hs
  rw [bne_iff_ne]
  exact fun heq => h (heq ▸ hs)

theorem cut_of_string {body : Text} (h : Symbol.quote ∉ body) (rest : Text) :
    cut Symbol.quote (body ++ Symbol.quote :: rest) =
      (⟨.string, Symbol.quote :: (body ++ [Symbol.quote])⟩, rest) := by
  rw [cut, if_pos rfl, cutString, span_eq (bne_of_not_mem h) (by simp)]

theorem cut_of_openString {body : Text} (h : Symbol.quote ∉ body) :
    cut Symbol.quote body = (⟨.openString, Symbol.quote :: body⟩, []) := by
  have all := span_eq (bne_of_not_mem h) (show ∀ s ∈ ([] : Text).head?, _ by simp)
  rw [List.append_nil] at all
  rw [cut, if_pos rfl, cutString, all]

theorem not_quote_of_isDigit {s : Symbol} (h : s.isDigit = true) : s ≠ Symbol.quote := by
  rintro rfl
  exact absurd h (by decide)

theorem cut_of_digits {first : Symbol} {whole rest : Text} (digit : first.isDigit = true)
    (digits : ∀ s ∈ whole, s.isDigit = true)
    (ends : ∀ s ∈ rest.head?, s.isDigit = false ∧ s ≠ Symbol.point) :
    cut first (whole ++ rest) = (⟨.number, first :: whole⟩, rest) := by
  rw [cut, if_neg (not_quote_of_isDigit digit), if_pos digit, cutNumber,
    span_eq digits fun s hs => (ends s hs).1]
  match rest, ends with
  | [], _ => rfl
  | [_], _ => rfl
  | p :: d :: more, ends => simp only [(ends p rfl).2, false_and, if_false]

theorem cut_of_fraction {first d : Symbol} {whole fraction rest : Text}
    (digit : first.isDigit = true) (digits : ∀ s ∈ whole, s.isDigit = true)
    (hd : d.isDigit = true) (more : ∀ s ∈ fraction, s.isDigit = true)
    (ends : ∀ s ∈ rest.head?, s.isDigit = false) :
    cut first (whole ++ Symbol.point :: d :: (fraction ++ rest)) =
      (⟨.number, first :: (whole ++ Symbol.point :: d :: fraction)⟩, rest) := by
  have notDigit : Symbol.point.isDigit = false := by decide
  rw [cut, if_neg (not_quote_of_isDigit digit), if_pos digit, cutNumber,
    span_eq digits (by simpa using notDigit)]
  simp only [hd, and_self, if_true]
  rw [span_eq more ends]

/-- A number is cut off before anything that is neither a digit nor a point. -/
theorem cut_of_number {t rest : Text} (follows : Form.number.Matches t)
    (ends : ∀ s ∈ rest.head?, s.isDigit = false ∧ s ≠ Symbol.point) :
    ∃ first more, t = first :: more ∧ cut first (more ++ rest) = (⟨.number, t⟩, rest) := by
  obtain ⟨first, whole, digit, digits, rfl | ⟨d, fraction, hd, more, rfl⟩⟩ := follows
  · exact ⟨first, whole, rfl, cut_of_digits digit digits ends⟩
  · refine ⟨first, _, rfl, ?_⟩
    rw [List.append_assoc]
    exact cut_of_fraction digit digits hd more fun s hs => (ends s hs).1

/-- What may start a word starts one, which goes on as long as it can. -/
theorem cut_of_isWordStart {first : Symbol} (start : first.isWordStart = true) (rest : Text) :
    cut first rest = cutRun .word Symbol.isWordPart first rest := by
  have noQuote : first ≠ Symbol.quote := by
    rintro rfl
    exact absurd start (by decide)
  have noDigit : ¬ first.isDigit = true := by
    simp [Symbol.isDigit_of_isWordStart start]
  rw [cut, if_neg noQuote, if_neg noDigit, if_pos start]

theorem cut_of_word {first : Symbol} {more rest : Text} (start : first.isWordStart = true)
    (parts : ∀ s ∈ more, s.isWordPart = true) (stops : rest.Stops) :
    cut first (more ++ rest) = (⟨.word, first :: more⟩, rest) := by
  rw [cut_of_isWordStart start, cutRun,
    span_eq parts fun s hs => (Symbol.ends_of_isWhite (stops s hs)).2.1]

/-- A symbol that is a mark by itself, and opens no comment, is the first of a mark. -/
theorem cut_eq_cutMark {first : Symbol} {rest : Text} {kind : Kind}
    (h : Kind.ofSymbol? first = some kind) (noComment : opensComment first rest = false) :
    cut first rest = cutMark first rest := by
  obtain ⟨noQuote, noDigit, noStart, noFeed, noBlank⟩ := Symbol.ends_of_ofSymbol? h
  simp [cut, noQuote, noDigit, noStart, noComment, noFeed, noBlank]

theorem cut_of_symbol {a : Symbol} {rest : Text} {kind : Kind}
    (h : Kind.ofSymbol? a = some kind) (stops : rest.Stops) :
    cut a rest = (⟨.mark kind, [a]⟩, rest) := by
  cases rest with
  | nil => rw [cut_eq_cutMark h (by simp [opensComment]), cutMark, cutSymbol, h]
  | cons s rest =>
    obtain ⟨-, -, -, noEqual, noSlash⟩ := Symbol.ends_of_isWhite (stops s rfl)
    have noComment : opensComment a (s :: rest) = false := by simp [opensComment, noSlash]
    rw [cut_eq_cutMark h noComment, cutMark, Symbol.ofPair?_eq_none noEqual, cutSymbol, h]

theorem cut_of_pair {a b : Symbol} {kind : Kind} (h : Kind.ofPair? a b = some kind)
    (rest : Text) : cut a (b :: rest) = (⟨.mark kind, [a, b]⟩, rest) := by
  obtain ⟨first, hf, noSlash⟩ := Symbol.exists_ofSymbol?_of_ofPair? h
  have noComment : opensComment a (b :: rest) = false := by
    have : a ≠ .char '/' := by
      rintro rfl
      exact noSlash (Option.some.inj hf).symm
    simp [opensComment, this]
  rw [cut_eq_cutMark hf noComment, cutMark, h]

/-- What follows the pattern of a token is cut off before white space. -/
theorem cut_of_matches {form : Form} {t rest : Text} (token : form.isToken = true)
    (follows : form.Matches t) (stops : rest.Stops) :
    ∃ first more, t = first :: more ∧ cut first (more ++ rest) = (⟨form, t⟩, rest) := by
  cases form with
  | string =>
    obtain ⟨body, rfl, noQuote⟩ := follows
    refine ⟨Symbol.quote, _, rfl, ?_⟩
    rw [List.append_assoc]
    exact cut_of_string noQuote rest
  | number =>
    refine cut_of_number follows fun s hs => ?_
    obtain ⟨noDigit, -, noPoint, -⟩ := Symbol.ends_of_isWhite (stops s hs)
    exact ⟨noDigit, noPoint⟩
  | word =>
    obtain ⟨first, more, rfl, start, parts⟩ := follows
    exact ⟨first, more, rfl, cut_of_word start parts stops⟩
  | mark kind =>
    rcases follows with ⟨a, rfl, ha⟩ | ⟨a, b, rfl, hab⟩
    · exact ⟨a, [], rfl, cut_of_symbol ha stops⟩
    · exact ⟨a, [b], rfl, cut_of_pair hab rest⟩
  | openString | comment | newline | blank | unknown => cases token

end Piece

/-- Before white space, what follows the pattern of a token is the next piece. -/
theorem Text.pieces_of_matches {form : Piece.Form} {t rest : Text} (token : form.isToken = true)
    (follows : form.Matches t) (stops : rest.Stops) :
    Text.pieces (t ++ rest) = ⟨form, t⟩ :: Text.pieces rest := by
  obtain ⟨first, more, rfl, hc⟩ := Piece.cut_of_matches token follows stops
  rw [List.cons_append, Text.pieces, hc]

end Scriptlet
