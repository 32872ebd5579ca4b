/-
Scriptlet.Proofs.Token.Munch — the longest slice is taken, and every slice is
accounted for.

Trying patterns in order is one thing, and taking the longest slice that any of
them covers is another: a pattern further down might cover more, and one that fits
might take less than it could. For the patterns of the language the two come to the
same (`length_le_of_covers`). What becomes of each slice is told by a relation that
looks at the slice alone (`Piece.Becomes`): nothing, one diagnostic or one token,
with the number or the string that it stands for. The tokens and diagnostics of a
source are those of its slices in order (`lex_by_longest_match`).

  §1 The longest slice.
  §2 Numbers.
  §3 What becomes of a piece.
  §4 Reading a source.
-/
import Mathlib.Data.List.Forall2
import Scriptlet.Proofs.Decimal.Spelling
import Scriptlet.Proofs.Token.Alternation

namespace Scriptlet

open Token (Kind)

/-! ## §1 The longest slice -/

namespace Piece

variable {first : Symbol} {m r rest : Text}

/-- A slice of symbols that pass a test is no longer than the slice of all of them. -/
theorem length_le_span {test : Symbol → Bool} {body : Text} (passes : ∀ s ∈ body, test s = true)
    (r : Text) : body.length ≤ (span test (body ++ r)).1.length := by
  rw [span, List.takeWhile_append_of_pos passes, List.length_append]
  exact Nat.le_add_right _ _

/-- The number that is cut off has all digits at the front. -/
theorem length_span_lt_cutNumber (first : Symbol) (rest : Text) :
    (span Symbol.isDigit rest).1.length < (cutNumber first rest).1.text.length := by
  unfold cutNumber
  generalize span Symbol.isDigit rest = parts
  obtain ⟨whole, after⟩ := parts
  match after with
  | [] => simp
  | [p] => simp
  | p :: d :: more =>
    simp only
    split
    · simp only [List.length_cons, List.length_append]
      omega
    · simp

theorem length_le_cutNumber (follows : Form.number.Matches m) (split : first :: rest = m ++ r) :
    first.isDigit = true ∧ m.length ≤ (cutNumber first rest).1.text.length := by
  obtain ⟨s, whole, digit, digits, rfl | ⟨d, fraction, next, more, rfl⟩⟩ := follows
  · rw [List.cons_append, List.cons.injEq] at split
    obtain ⟨rfl, rfl⟩ := split
    have all := length_le_span digits r
    have cut := length_span_lt_cutNumber first (whole ++ r)
    refine ⟨digit, ?_⟩
    rw [List.length_cons]
    omega
  · rw [List.cons_append, List.append_assoc, List.cons.injEq] at split
    obtain ⟨rfl, rfl⟩ := split
    have noDigit : Symbol.point.isDigit = false := by decide
    have all := length_le_span more r
    refine ⟨digit, ?_⟩
    rw [cutNumber, List.cons_append, List.cons_append, span_eq digits (by simpa using noDigit)]
    simp only [next, and_self, if_true, List.length_cons, List.length_append]
    omega

/-- A slice that follows a pattern is no longer than the first piece. An open string is to have
nothing behind it. -/
theorem length_le_cut {form : Form} (follows : form.Matches m)
    (closed : form = .openString → r = []) (split : first :: rest = m ++ r) :
    m.length ≤ (cut first rest).1.text.length := by
  have nonempty : 1 ≤ (cut first rest).1.text.length :=
    List.length_pos_iff.mpr (cut_text_ne_nil first rest)
  cases form with
  | string =>
    obtain ⟨body, rfl, noQuote⟩ := follows
    rw [List.cons_append, List.append_assoc, List.cons.injEq] at split
    obtain ⟨rfl, rfl⟩ := split
    exact Nat.le_of_eq (by rw [List.singleton_append, cut_of_string noQuote])
  | openString =>
    obtain ⟨body, rfl, noQuote⟩ := follows
    rw [closed rfl, List.append_nil, List.cons.injEq] at split
    obtain ⟨rfl, rfl⟩ := split
    exact Nat.le_of_eq (by rw [cut_of_openString noQuote])
  | number =>
    obtain ⟨digit, le⟩ := length_le_cutNumber follows split
    rwa [cut, if_neg (not_quote_of_isDigit digit), if_pos digit]
  | word =>
    obtain ⟨s, body, rfl, start, parts⟩ := follows
    rw [List.cons_append, List.cons.injEq] at split
    obtain ⟨rfl, rfl⟩ := split
    rw [cut_of_isWordStart start]
    exact Nat.succ_le_succ (length_le_span parts r)
  | comment =>
    obtain ⟨body, rfl, inLine⟩ := follows
    rw [List.cons_append, List.cons.injEq] at split
    obtain ⟨rfl, rfl⟩ := split
    have inner : ∀ s ∈ .char '/' :: body, (s != Symbol.lineFeed) = true :=
      List.forall_mem_cons.mpr ⟨by decide, bne_of_not_mem inLine⟩
    exact Nat.succ_le_succ (length_le_span inner r)
  | mark kind =>
    rcases follows with ⟨a, rfl, -⟩ | ⟨a, b, rfl, pair⟩
    · exact nonempty
    · rw [List.cons_append, List.cons.injEq] at split
      obtain ⟨rfl, rfl⟩ := split
      exact Nat.le_of_eq (by rw [List.singleton_append, cut_of_pair pair])
  | newline =>
    rw [follows]
    exact nonempty
  | blank =>
    obtain ⟨s, body, rfl, blank, blanks⟩ := follows
    rw [List.cons_append, List.cons.injEq] at split
    obtain ⟨rfl, rfl⟩ := split
    rw [cut_of_blank blank]
    exact Nat.succ_le_succ (length_le_span blanks r)
  | unknown =>
    obtain ⟨a, rfl, -⟩ := follows
    exact nonempty

end Piece

namespace Pattern

variable {form : Piece.Form} {p : Pattern} {m r : Text}

theorem covers_one_seq {test : Symbol → Bool} {next : Pattern} :
    (seq (.one test) next).Covers m r ↔
      ∃ s b, m = s :: b ∧ test s = true ∧ next.Covers b r := by
  constructor
  · rintro ⟨a, b, rfl, ⟨s, rfl, passes⟩, covers⟩
    exact ⟨s, b, rfl, passes, covers⟩
  · rintro ⟨s, b, rfl, passes, covers⟩
    exact ⟨[s], b, rfl, ⟨s, rfl, passes⟩, covers⟩

theorem covers_only_seq {a : Symbol} {next : Pattern} :
    (seq (only a) next).Covers m r ↔ ∃ b, m = a :: b ∧ next.Covers b r := by
  simp [only, covers_one_seq]

theorem covers_only {a : Symbol} : (only a).Covers m r ↔ m = [a] := by
  simp [only, Covers]

/-- What the patterns of strings, numbers, words and comments cover has their form, and nothing
follows an open string. -/
theorem matches_of_covers_texts (mem : (form, p) ∈ texts) (covers : p.Covers m r) :
    form.Matches m ∧ (form = .openString → r = []) := by
  simp only [texts, List.mem_cons, Prod.mk.injEq, List.not_mem_nil, or_false] at mem
  rcases mem with ⟨rfl, rfl⟩ | ⟨rfl, rfl⟩ | ⟨rfl, rfl⟩ | ⟨rfl, rfl⟩ | ⟨rfl, rfl⟩
  · obtain ⟨b, rfl, body, q, rfl, inner, quote⟩ := covers_only_seq.mp covers
    rw [covers_only.mp quote]
    exact ⟨⟨body, rfl, Piece.quote_not_mem inner⟩, by simp⟩
  · obtain ⟨b, rfl, body, q, rfl, inner, rfl, rfl⟩ := covers_only_seq.mp covers
    exact ⟨⟨body, by rw [List.append_nil], Piece.quote_not_mem inner⟩, fun _ => rfl⟩
  · obtain ⟨s, b, rfl, digit, whole, behind, rfl, digits, ends⟩ := covers_one_seq.mp covers
    refine ⟨⟨s, whole, digit, digits, ?_⟩, by simp⟩
    rcases ends with point | rfl
    · obtain ⟨c, rfl, behindPoint⟩ := covers_only_seq.mp point
      obtain ⟨d, decimals, rfl, next, more⟩ := covers_one_seq.mp behindPoint
      exact .inr ⟨d, decimals, next, more, rfl⟩
    · exact .inl (by rw [List.append_nil])
  · obtain ⟨s, b, rfl, start, parts⟩ := covers_one_seq.mp covers
    exact ⟨⟨s, b, rfl, start, parts⟩, by simp⟩
  · obtain ⟨b, rfl, slash⟩ := covers_only_seq.mp covers
    obtain ⟨body, rfl, inner⟩ := covers_only_seq.mp slash
    refine ⟨⟨body, rfl, fun feed => ?_⟩, by simp⟩
    have inner := inner _ feed
    simp at inner

theorem matches_of_covers_marks (mem : (form, p) ∈ marks) (covers : p.Covers m r) :
    form.Matches m ∧ (form = .openString → r = []) := by
  rcases List.mem_append.mp mem with mem | mem
  · obtain ⟨entry, isDouble, eq⟩ := List.mem_map.mp mem
    obtain ⟨rfl, rfl⟩ := Prod.mk.inj eq
    obtain ⟨b, rfl, equals⟩ := covers_only_seq.mp covers
    rw [covers_only.mp equals]
    exact ⟨.inr ⟨_, _, rfl, ofPair?_of_mem_doubles entry isDouble⟩, by simp⟩
  · obtain ⟨entry, isSingle, eq⟩ := List.mem_map.mp mem
    obtain ⟨rfl, rfl⟩ := Prod.mk.inj eq
    exact ⟨.inl ⟨_, covers_only.mp covers, ofSymbol?_of_mem_singles entry isSingle⟩, by simp⟩

/-- What a pattern covers has its form, or it is a single symbol; and nothing follows an open
string. -/
theorem matches_of_covers (mem : (form, p) ∈ alternatives) (covers : p.Covers m r) :
    (form.Matches m ∨ ∃ s, m = [s]) ∧ (form = .openString → r = []) := by
  rcases List.mem_append.mp mem with mem | mem
  · exact (matches_of_covers_texts mem covers).imp_left .inl
  rcases List.mem_append.mp mem with mem | mem
  · exact (matches_of_covers_marks mem covers).imp_left .inl
  simp only [remainders, List.mem_cons, Prod.mk.injEq, List.not_mem_nil, or_false] at mem
  rcases mem with ⟨rfl, rfl⟩ | ⟨rfl, rfl⟩ | ⟨rfl, rfl⟩
  · exact ⟨.inl (covers_only.mp covers), by simp⟩
  · obtain ⟨a, b, rfl, blank, blanks⟩ := covers_one_seq.mp covers
    exact ⟨.inl ⟨a, b, rfl, blank, blanks⟩, by simp⟩
  · obtain ⟨s, rfl, -⟩ := covers
    exact ⟨.inr ⟨s, rfl⟩, by simp⟩

/-- No pattern covers more than the first piece. -/
theorem length_le_of_covers {s : Symbol} {rest : Text} (mem : (form, p) ∈ alternatives)
    (covers : p.Covers m r) (split : s :: rest = m ++ r) :
    m.length ≤ (Piece.cut s rest).1.text.length := by
  obtain ⟨follows | ⟨a, rfl⟩, closed⟩ := matches_of_covers mem covers
  · exact Piece.length_le_cut follows closed split
  · exact List.length_pos_iff.mpr (Piece.cut_text_ne_nil s rest)

theorem exists_covers_of_first? {table : List (Piece.Form × Pattern)} {t : Text}
    (h : first? table t = some (form, r)) :
    ∃ p m, (form, p) ∈ table ∧ t = m ++ r ∧ p.Covers m r := by
  obtain ⟨⟨form', p⟩, mem, fits⟩ := List.exists_of_findSome?_eq_some h
  obtain ⟨r', head, eq⟩ := Option.map_eq_some_iff.mp fits
  obtain ⟨rfl, rfl⟩ := Prod.mk.inj eq
  obtain ⟨m, split, covers⟩ := mem_ways.mp (List.mem_of_head? head)
  exact ⟨p, m, mem, split, covers⟩

/-- `Longest form m rest`: at the front of `m ++ rest`, the slice `m` is covered by a pattern of the
form, and no pattern covers a longer one. -/
structure Longest (form : Piece.Form) (m rest : Text) : Prop where
  covered : ∃ p, (form, p) ∈ alternatives ∧ p.Covers m rest
  longest : ∀ form' p m' rest', (form', p) ∈ alternatives → m ++ rest = m' ++ rest' →
    p.Covers m' rest' → m'.length ≤ m.length

/-- **The first piece is the longest slice that any pattern covers.** -/
theorem longest_cut (s : Symbol) (rest : Text) :
    Longest (Piece.cut s rest).1.form (Piece.cut s rest).1.text (Piece.cut s rest).2 := by
  have whole := Piece.cut_append s rest
  constructor
  · obtain ⟨p, m, mem, split, covers⟩ := exists_covers_of_first? (first?_alternatives s rest)
    rw [← whole, List.append_cancel_right_eq] at split
    rw [split]
    exact ⟨p, mem, covers⟩
  · intro form p m r mem split covers
    rw [whole] at split
    exact length_le_of_covers mem covers split

theorem Longest.eq_nil_of_openString {m rest : Text} (h : Longest .openString m rest) :
    rest = [] := by
  obtain ⟨p, mem, covers⟩ := h.covered
  exact (matches_of_covers mem covers).2 rfl

end Pattern

/-! ## §2 Numbers -/

/-- A decimal digit as a symbol. -/
def Symbol.ofDigit (d : Fin 10) : Symbol := .char (Nat.digitChar d)

/-- A number written in decimal digits, with a point if there are digits behind it. -/
def Text.ofDigits (whole fraction : List (Fin 10)) : Text :=
  whole.map Symbol.ofDigit ++
    if fraction = [] then [] else Symbol.point :: fraction.map Symbol.ofDigit

/-- The decimal that digits before and behind a point stand for. -/
def Decimal.ofDigits (whole fraction : List (Fin 10)) : Decimal :=
  ⟨Nat.ofDigits 10 ((whole ++ fraction).map Fin.val).reverse, -(fraction.length : Int)⟩

namespace Symbol

theorem isDigit_ofDigit : ∀ d, (ofDigit d).isDigit = true := by decide

/-- The symbols that are digits are those of the ten digits. -/
theorem exists_ofDigit {s : Symbol} (h : s.isDigit = true) : ∃ d, s = ofDigit d := by
  cases s with
  | stray b => cases h
  | char c =>
    obtain ⟨low, high⟩ := Char.isDigit_iff_toNat.mp h
    have all : ∀ d : Fin 10, Char.ofNat ('0'.toNat + d) = Nat.digitChar d := by decide
    have bound : c.toNat - '0'.toNat < 10 := by
      have nine : '9'.toNat = '0'.toNat + 9 := by decide
      omega
    refine ⟨⟨_, bound⟩, ?_⟩
    rw [ofDigit, ← all, Nat.add_sub_cancel' low, Char.ofNat_toNat]

theorem exists_map_ofDigit {t : Text} (h : ∀ s ∈ t, s.isDigit = true) :
    ∃ digits : List (Fin 10), t = digits.map ofDigit := by
  induction t with
  | nil => exact ⟨[], rfl⟩
  | cons s t ih =>
    rw [List.forall_mem_cons] at h
    obtain ⟨d, rfl⟩ := exists_ofDigit h.1
    obtain ⟨digits, rfl⟩ := ih h.2
    exact ⟨d :: digits, rfl⟩

end Symbol

namespace Piece

theorem chars_map_ofDigit (digits : List (Fin 10)) :
    Text.chars (digits.map Symbol.ofDigit) = digitChars digits := by
  rw [Text.chars, List.filterMap_map, digitChars, ← List.filterMap_eq_map]
  rfl

/-- The text of a number stands for the double nearest to its decimal. -/
theorem numberValue_ofDigits (whole fraction : List (Fin 10)) :
    numberValue (Text.ofDigits whole fraction) =
      (Decimal.ofDigits whole fraction).toDouble := by
  have digits : ∀ s ∈ whole.map Symbol.ofDigit, s.isDigit = true := by
    simp [Symbol.isDigit_ofDigit]
  have stop : ∀ s ∈ (if fraction = [] then [] else
      Symbol.point :: fraction.map Symbol.ofDigit).head?, s.isDigit = false := by
    split
    · simp
    · have noDigit : Symbol.point.isDigit = false := by decide
      simpa using noDigit
  have parts := span_eq digits stop
  rw [span, Prod.mk.injEq] at parts
  have behind : List.drop 1 (if fraction = [] then [] else
      Symbol.point :: fraction.map Symbol.ofDigit) = fraction.map Symbol.ofDigit := by
    split
    · next none => rw [none]; rfl
    · rfl
  rw [numberValue, Text.ofDigits, parts.1, parts.2, behind, ← List.map_append, chars_map_ofDigit,
    number_digitChars, List.length_map]
  rfl

/-- Every number is written in decimal digits. -/
theorem exists_digits {t : Text} (h : Form.number.Matches t) :
    ∃ whole fraction, whole ≠ [] ∧ t = Text.ofDigits whole fraction := by
  obtain ⟨first, rest, digit, digits, eq⟩ := h
  obtain ⟨whole, written⟩ := Symbol.exists_map_ofDigit (List.forall_mem_cons.mpr ⟨digit, digits⟩)
  have nonempty : whole ≠ [] := by
    rintro rfl
    cases written
  rcases eq with rfl | ⟨d, decimals, next, more, rfl⟩
  · exact ⟨whole, [], nonempty, by simp [Text.ofDigits, written]⟩
  · obtain ⟨fraction, written'⟩ :=
      Symbol.exists_map_ofDigit (List.forall_mem_cons.mpr ⟨next, more⟩)
    have more : fraction ≠ [] := by
      rintro rfl
      cases written'
    refine ⟨whole, fraction, nonempty, ?_⟩
    rw [Text.ofDigits, if_neg more, ← written, ← written', List.cons_append]

end Piece

/-! ## §3 What becomes of a piece -/

/-- `t.Reads form`: the token has the kind and the literal of its lexeme read as a slice of a form.
A string stands for what is between its quotes and a number for the double of its decimal; a word
has the kind of the reserved word that it is. -/
def Token.Reads (t : Token) : Piece.Form → Prop
  | .string => t.kind = .string ∧
      ∃ body, t.lexeme = Symbol.quote :: (body ++ [Symbol.quote]) ∧ t.literal = some (.string body)
  | .number => t.kind = .number ∧ ∃ whole fraction, whole ≠ [] ∧
      t.lexeme = Text.ofDigits whole fraction ∧
      t.literal = some (.number (Decimal.ofDigits whole fraction).toDouble)
  | .word => t.literal = none ∧
      ((∃ entry ∈ Kind.reserved, t.lexeme = Text.ofString entry.1 ∧ t.kind = entry.2) ∨
        t.kind = .name ∧ ∀ entry ∈ Kind.reserved, t.lexeme ≠ Text.ofString entry.1)
  | .mark kind => t.kind = kind ∧ t.literal = none
  | .openString | .comment | .newline | .blank | .unknown => False

/-- `piece.Becomes tokens diagnostics`: what a piece becomes, somewhere in a source. -/
inductive Piece.Becomes (piece : Piece) : List Token → List Diagnostic → Prop where
  | nothing (form : piece.form = .comment ∨ piece.form = .newline ∨ piece.form = .blank) :
      Becomes piece [] []
  | unexpected {d : Diagnostic} (form : piece.form = .unknown)
      (said : d.text = Diagnostic.frame d.line [] "Unexpected character.") : Becomes piece [] [d]
  | unterminated {d : Diagnostic} (form : piece.form = .openString)
      (said : d.text = Diagnostic.frame d.line [] "Unterminated string.") : Becomes piece [] [d]
  | token {t : Token} (lexeme : t.lexeme = piece.text) (reads : t.Reads piece.form) :
      Becomes piece [t] []

/-- A word has the kind of the reserved word that it is, or else that of a name. -/
theorem Token.Kind.ofWord_cases (word : Text) :
    (∃ entry ∈ reserved, word = Text.ofString entry.1 ∧ ofWord word = entry.2) ∨
      ofWord word = name ∧ ∀ entry ∈ reserved, word ≠ Text.ofString entry.1 := by
  unfold ofWord
  cases found : reserved.find? fun entry => Text.ofString entry.1 == word with
  | some entry =>
    have same : Text.ofString entry.1 = word := by simpa using List.find?_some found
    exact .inl ⟨entry, List.mem_of_find?_eq_some found, same.symm, rfl⟩
  | none =>
    refine .inr ⟨rfl, fun entry mem same => ?_⟩
    have other := List.find?_eq_none.mp found entry mem
    exact other (by simp [same])

/-- A piece that follows the pattern of its form becomes what it has to become. -/
theorem Piece.becomes {piece : Piece} (follows : piece.form.Matches piece.text) (p : Position) :
    piece.Becomes (piece.token? p).toList (piece.diagnostic? p).toList := by
  obtain ⟨form, text⟩ := piece
  cases form with
  | string =>
    obtain ⟨body, eq, -⟩ := follows
    have eq : text = Symbol.quote :: (body ++ [Symbol.quote]) := eq
    have unquoted : unquoted text = body := by
      rw [eq, Piece.unquoted, List.tail_cons, List.dropLast_concat]
    exact .token rfl ⟨rfl, body, eq, by rw [unquoted]⟩
  | number =>
    obtain ⟨whole, fraction, nonempty, eq⟩ := exists_digits follows
    exact .token rfl ⟨rfl, whole, fraction, nonempty, eq, by rw [← numberValue_ofDigits, ← eq]⟩
  | word => exact .token rfl ⟨rfl, Kind.ofWord_cases text⟩
  | mark kind => exact .token rfl ⟨rfl, rfl⟩
  | openString => exact .unterminated rfl rfl
  | unknown => exact .unexpected rfl rfl
  | comment => exact .nothing (.inl rfl)
  | newline => exact .nothing (.inr (.inl rfl))
  | blank => exact .nothing (.inr (.inr rfl))

/-- Pieces in a row become what each of them has to become. -/
theorem Piece.forall₂_becomes {pieces : List Piece}
    (follow : ∀ piece ∈ pieces, piece.form.Matches piece.text) (p : Position) :
    List.Forall₂ (fun piece made => piece.Becomes made.1 made.2) pieces
      ((located p pieces).map fun (q, piece) =>
        ((piece.token? q).toList, (piece.diagnostic? q).toList)) := by
  induction pieces generalizing p with
  | nil => exact .nil
  | cons piece rest ih =>
    rw [List.forall_mem_cons] at follow
    exact .cons (piece.becomes follow.1 p) (ih follow.2 _)

/-! ## §4 Reading a source -/

theorem Token.Kind.reserved_ne_finish : ∀ entry ∈ reserved, entry.2 ≠ finish := by decide

/-- No token that reads its lexeme is the mark of the end. -/
theorem Token.Reads.kind_ne_finish {t : Token} {form : Piece.Form} (reads : t.Reads form)
    (follows : form.Matches t.lexeme) : t.kind ≠ .finish := by
  intro finish
  cases form with
  | string | number =>
    rw [reads.1] at finish
    cases finish
  | word =>
    rcases reads.2 with ⟨entry, mem, -, kind⟩ | ⟨kind, -⟩
    · exact Kind.reserved_ne_finish entry mem (kind.symm.trans finish)
    · rw [kind] at finish
      cases finish
  | mark kind => exact (Piece.ne_of_matches_mark follows).2 (reads.1.symm.trans finish)
  | openString | comment | newline | blank | unknown => exact reads

namespace Text

/-- The tokens and diagnostics of a source are what its pieces become, in order. -/
theorem exists_becomes (source : Text) : ∃ made : List (List Token × List Diagnostic),
    List.Forall₂ (fun piece made => piece.Becomes made.1 made.2) source.pieces made ∧
      source.lex.tokens = made.flatMap Prod.fst ∧
      source.lex.diagnostics = made.flatMap Prod.snd := by
  refine ⟨_, Piece.forall₂_becomes source.matches_of_mem_pieces .start, ?_, ?_⟩
  · rw [List.flatMap_map, tokens_lex]
    exact List.filterMap_eq_flatMap_toList _ _
  · rw [List.flatMap_map, diagnostics_lex]
    exact List.filterMap_eq_flatMap_toList _ _

/-- Every token of a source reads its lexeme as a slice of some form. -/
theorem exists_reads_of_mem_lex {source : Text} {t : Token} (h : t ∈ source.lex.tokens) :
    ∃ form : Piece.Form, form.Matches t.lexeme ∧ t.Reads form := by
  rw [tokens_lex] at h
  obtain ⟨⟨p, piece⟩, located, made⟩ := List.mem_filterMap.mp h
  have follows := source.matches_of_mem_pieces piece (Piece.mem_of_mem_located located)
  have made : piece.token? p = some t := made
  have becomes := piece.becomes follows p
  rw [made] at becomes
  generalize (piece.diagnostic? p).toList = diagnostics at becomes
  cases becomes with
  | token lexeme reads => exact ⟨piece.form, lexeme ▸ follows, reads⟩

theorem kind_ne_finish_of_mem_lex {source : Text} {t : Token} (h : t ∈ source.lex.tokens) :
    t.kind ≠ .finish := by
  obtain ⟨form, follows, reads⟩ := exists_reads_of_mem_lex h
  exact reads.kind_ne_finish follows

/-- **A source is read by longest match, and all of it is accounted for.** The pieces of a source
are never empty and make it up without a gap. Each of them is what the first pattern that fits
takes of what remains, and the longest slice of it that any pattern covers; one with an open string
is the last. In order, each piece becomes nothing, one diagnostic or one token that reads it. The
tokens are followed by the one mark of the end. -/
theorem lex_by_longest_match (source : Text) :
    source.pieces.flatMap Piece.text = source ∧
    (∀ before piece after, source.pieces = before ++ piece :: after →
      piece.text ≠ [] ∧
      Pattern.first? Pattern.alternatives (piece.text ++ after.flatMap Piece.text) =
        some (piece.form, after.flatMap Piece.text) ∧
      Pattern.Longest piece.form piece.text (after.flatMap Piece.text) ∧
      (piece.form = .openString → after = [])) ∧
    (∃ made : List (List Token × List Diagnostic),
      List.Forall₂ (fun piece made => piece.Becomes made.1 made.2) source.pieces made ∧
      source.lex.tokens = made.flatMap Prod.fst ∧
      source.lex.diagnostics = made.flatMap Prod.snd) ∧
    source.lex.all = source.lex.tokens ++ [source.lex.last] ∧ source.lex.last.kind = .finish ∧
    ∀ t ∈ source.lex.tokens, t.kind ≠ .finish := by
  refine ⟨source.flatMap_pieces, fun before piece after split => ?_, source.exists_becomes, rfl,
    source.kind_last_lex, fun t => kind_ne_finish_of_mem_lex⟩
  obtain ⟨remaining, -, pieces⟩ := pieces_split split
  obtain ⟨s, rest, rfl, rfl, rfl⟩ := exists_cut_of_pieces pieces
  have longest := Pattern.longest_cut s rest
  rw [flatMap_pieces, Piece.cut_append]
  refine ⟨Piece.cut_text_ne_nil s rest, Pattern.first?_alternatives s rest, longest, ?_⟩
  intro isOpen
  rw [isOpen] at longest
  rw [longest.eq_nil_of_openString, Text.pieces]

/-- A source in which pieces stand close to each other, and the last one is an open string. -/
def denseSource : Text := "1.5.x//\"q\n!==@\"a\nb"

/-- The pieces of that source. -/
def densePieces : List Piece :=
  [⟨.number, "1.5"⟩, ⟨.mark .dot, "."⟩, ⟨.word, "x"⟩, ⟨.comment, "//\"q"⟩, ⟨.newline, "\n"⟩,
    ⟨.mark .bangEqual, "!="⟩, ⟨.mark .equal, "="⟩, ⟨.unknown, "@"⟩, ⟨.openString, "\"a\nb"⟩]

/-- A point with a digit behind it belongs to a number and another one does not, a quote in a
comment opens no string, and of three marks the first two make one. -/
theorem lex_by_longest_match_dense :
    denseSource.pieces = densePieces ∧
    Pattern.Longest .number "1.5" ".x//\"q\n!==@\"a\nb" ∧
    Pattern.Longest .comment "//\"q" "\n!==@\"a\nb" ∧
    Pattern.Longest (.mark .bangEqual) "!=" "=@\"a\nb" ∧
    Pattern.Longest .openString "\"a\nb" [] := by
  have pieces : denseSource.pieces = densePieces := by decide +kernel
  have each := (lex_by_longest_match denseSource).2.1
  rw [pieces] at each
  exact ⟨pieces, (each (densePieces.take 0) _ _ rfl).2.2.1,
    (each (densePieces.take 3) _ _ rfl).2.2.1, (each (densePieces.take 5) _ _ rfl).2.2.1,
    (each (densePieces.take 8) _ _ rfl).2.2.1⟩

end Text

end Scriptlet
