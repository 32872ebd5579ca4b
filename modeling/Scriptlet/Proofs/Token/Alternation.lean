/-
Scriptlet.Proofs.Token.Alternation — pieces found by trying patterns in order.

The pieces of the language can be told by a table of patterns that are tried in
order at the front of a source, where each pattern tries its own ways to fit in an
order, too: rather more symbols than fewer. What counts is the first way in which
the first pattern that fits does so. It takes exactly the first piece
(`first?_alternatives`), so nothing of a source is ever passed over.

  §1 Patterns    — what they cover, and the order in which ways to fit are tried.
  §2 The table.
  §3 The first pattern that fits.
-/
import Scriptlet.Proofs.Token.Layout

namespace Scriptlet

open Token (Kind)

/-! ## §1 Patterns -/

/-- A pattern for the front of a text. -/
inductive Pattern where
  /-- One symbol that passes a test. -/
  | one (test : Symbol → Bool)
  /-- Any number of symbols that pass a test, rather more than fewer. -/
  | many (test : Symbol → Bool)
  /-- One pattern and another behind it. -/
  | seq (first next : Pattern)
  /-- A pattern, or else nothing. -/
  | maybe (inner : Pattern)
  /-- The end of the text. -/
  | finish

namespace Pattern

/-- `p.Covers m rest`: the pattern covers the slice `m` where `rest` follows. -/
def Covers : Pattern → Text → Text → Prop
  | one test, m, _ => ∃ s, m = [s] ∧ test s = true
  | many test, m, _ => ∀ s ∈ m, test s = true
  | seq first next, m, rest =>
    ∃ a b, m = a ++ b ∧ first.Covers a (b ++ rest) ∧ next.Covers b rest
  | maybe inner, m, rest => inner.Covers m rest ∨ m = []
  | finish, m, rest => m = [] ∧ rest = []

/-- What can remain behind symbols that pass a test, the least first. -/
def waysMany (test : Symbol → Bool) : Text → List Text
  | [] => [[]]
  | s :: rest => if test s then waysMany test rest ++ [s :: rest] else [s :: rest]

/-- The ways in which a pattern fits the front of a text, in the order in which they are tried. Each
is given by what remains. -/
def ways : Pattern → Text → List Text
  | one _, [] => []
  | one test, s :: rest => if test s then [rest] else []
  | many test, t => waysMany test t
  | seq first next, t => (first.ways t).flatMap next.ways
  | maybe inner, t => inner.ways t ++ [t]
  | finish, [] => [[]]
  | finish, _ :: _ => []

theorem mem_waysMany {test : Symbol → Bool} {t rest : Text} :
    rest ∈ waysMany test t ↔ ∃ m, t = m ++ rest ∧ ∀ s ∈ m, test s = true := by
  induction t with
  | nil =>
    rw [waysMany, List.mem_singleton]
    constructor
    · rintro rfl
      exact ⟨[], rfl, by simp⟩
    · rintro ⟨m, split, -⟩
      exact (List.append_eq_nil_iff.mp split.symm).2
  | cons s t ih =>
    have here : (∃ m, s :: t = m ++ rest ∧ ∀ a ∈ m, test a = true) ↔
        rest = s :: t ∨ test s = true ∧ rest ∈ waysMany test t := by
      rw [ih]
      constructor
      · rintro ⟨m, split, passes⟩
        cases m with
        | nil => exact .inl split.symm
        | cons a m =>
          obtain ⟨rfl, rfl⟩ := List.cons.inj split
          rw [List.forall_mem_cons] at passes
          exact .inr ⟨passes.1, m, rfl, passes.2⟩
      · rintro (rfl | ⟨first, m, rfl, passes⟩)
        · exact ⟨[], rfl, by simp⟩
        · exact ⟨s :: m, rfl, List.forall_mem_cons.mpr ⟨first, passes⟩⟩
    rw [here, waysMany]
    cases test s <;> simp [or_comm]

/-- The ways in which a pattern fits are the slices that it covers. -/
theorem mem_ways {p : Pattern} {t rest : Text} :
    rest ∈ p.ways t ↔ ∃ m, t = m ++ rest ∧ p.Covers m rest := by
  induction p generalizing t rest with
  | one test =>
    cases t with
    | nil => simp [ways, Covers]
    | cons s t =>
      simp only [ways, Covers]
      constructor
      · intro h
        split at h
        · next passes => exact ⟨[s], by rw [List.mem_singleton.mp h]; rfl, s, rfl, passes⟩
        · cases h
      · rintro ⟨m, split, a, rfl, passes⟩
        obtain ⟨rfl, rfl⟩ := List.cons.inj split
        simp [passes]
  | many test => exact mem_waysMany
  | seq first next ihf ihn =>
    rw [ways, List.mem_flatMap]
    constructor
    · rintro ⟨between, there, behind⟩
      obtain ⟨a, rfl, coversFirst⟩ := ihf.mp there
      obtain ⟨b, rfl, coversNext⟩ := ihn.mp behind
      exact ⟨a ++ b, by rw [List.append_assoc], a, b, rfl, coversFirst, coversNext⟩
    · rintro ⟨m, rfl, a, b, rfl, coversFirst, coversNext⟩
      exact ⟨b ++ rest, ihf.mpr ⟨a, by rw [List.append_assoc], coversFirst⟩,
        ihn.mpr ⟨b, rfl, coversNext⟩⟩
  | maybe inner ih =>
    rw [ways, List.mem_append, List.mem_singleton, ih]
    constructor
    · rintro (⟨m, rfl, covers⟩ | rfl)
      · exact ⟨m, rfl, .inl covers⟩
      · exact ⟨[], rfl, .inr rfl⟩
    · rintro ⟨m, rfl, covers | rfl⟩
      · exact .inl ⟨m, rfl, covers⟩
      · exact .inr rfl
  | finish =>
    cases t with
    | nil => simp [ways, Covers, eq_comm]
    | cons s t =>
      simp only [ways, Covers, List.not_mem_nil, false_iff]
      rintro ⟨m, split, rfl, rfl⟩
      cases split

/-! ## §2 The table -/

/-- A pattern for one symbol alone. -/
def only (s : Symbol) : Pattern := .one (· == s)

/-- The pattern of a point with digits behind it. -/
def fraction : Pattern :=
  .seq (only Symbol.point) (.seq (.one Symbol.isDigit) (.many Symbol.isDigit))

/-- The patterns of strings, numbers, words and comments. -/
def texts : List (Piece.Form × Pattern) :=
  [(.string, .seq (only Symbol.quote) (.seq (.many (· != Symbol.quote)) (only Symbol.quote))),
   (.openString, .seq (only Symbol.quote) (.seq (.many (· != Symbol.quote)) .finish)),
   (.number, .seq (.one Symbol.isDigit) (.seq (.many Symbol.isDigit) (.maybe fraction))),
   (.word, .seq (.one Symbol.isWordStart) (.many Symbol.isWordPart)),
   (.comment, .seq (only (.char '/')) (.seq (only (.char '/')) (.many (· != Symbol.lineFeed))))]

/-- The characters that make a mark with an equals sign behind them, with the kind of the mark. -/
def doubles : List (Char × Kind) :=
  [('!', .bangEqual), ('=', .equalEqual), ('>', .greaterEqual), ('<', .lessEqual)]

/-- The characters that are marks by themselves, with the kind of the mark. -/
def singles : List (Char × Kind) :=
  [('!', .bang), ('=', .equal), ('>', .greater), ('<', .less), ('(', .leftParen),
   (')', .rightParen), ('\x7b', .leftBrace), ('\x7d', .rightBrace), (',', .comma), ('.', .dot),
   ('-', .minus), ('+', .plus), (';', .semicolon), ('/', .slash), ('*', .star)]

/-- The patterns of marks, those of two characters first. -/
def marks : List (Piece.Form × Pattern) :=
  doubles.map (fun (c, kind) => (.mark kind, .seq (only (.char c)) (only (.char '=')))) ++
    singles.map fun (c, kind) => (.mark kind, only (.char c))

/-- The patterns of white space, and the one for whatever is left but a line feed. -/
def remainders : List (Piece.Form × Pattern) :=
  [(.newline, only Symbol.lineFeed), (.blank, .seq (.one Symbol.isBlank) (.many Symbol.isBlank)),
   (.unknown, .one (· != Symbol.lineFeed))]

/-- The patterns of the language in the order in which they are tried. -/
def alternatives : List (Piece.Form × Pattern) :=
  texts ++ (marks ++ remainders)

/-- The form of the first pattern that fits the front of a text, and what remains when it takes what
it tries to take first. -/
def first? (table : List (Piece.Form × Pattern)) (t : Text) : Option (Piece.Form × Text) :=
  table.findSome? fun (form, p) => (p.ways t).head?.map (form, ·)

theorem first?_append (table more : List (Piece.Form × Pattern)) (t : Text) :
    first? (table ++ more) t = (first? table t).or (first? more t) :=
  List.findSome?_append

section Trying

variable {form : Piece.Form} {p : Pattern} {table : List (Piece.Form × Pattern)} {t r : Text}

/-- A pattern that does not fit is passed over. -/
theorem first?_skip (stuck : p.ways t = []) : first? ((form, p) :: table) t = first? table t := by
  simp [first?, stuck]

/-- If no pattern fits, none is the first. -/
theorem first?_eq_none (stuck : ∀ entry ∈ table, entry.2.ways t = []) : first? table t = none := by
  refine List.findSome?_eq_none_iff.mpr fun entry mem => ?_
  simp [stuck entry mem]

/-- A pattern that fits takes what it tries to take first. -/
theorem first?_take (fits : (p.ways t).head? = some r) :
    first? ((form, p) :: table) t = some (form, r) := by
  simp [first?, fits]

end Trying

/-! ## §3 The first pattern that fits -/

section First

variable {s : Symbol} {rest : Text}

/-- Of symbols that pass a test as many as possible are tried first. Every other way stops before
one of them. -/
theorem waysMany_eq (test : Symbol → Bool) (t : Text) :
    ∃ fewer, waysMany test t = (Piece.span test t).2 :: fewer ∧
      ∀ r ∈ fewer, ∃ s more, r = s :: more ∧ test s = true := by
  induction t with
  | nil => exact ⟨[], rfl, by simp⟩
  | cons s t ih =>
    obtain ⟨fewer, eq, stops⟩ := ih
    cases passes : test s with
    | true =>
      refine ⟨fewer ++ [s :: t], ?_, fun r mem => ?_⟩
      · simp only [waysMany, passes, if_true, eq, Piece.span, List.dropWhile_cons_of_pos passes,
          List.cons_append]
      · rcases List.mem_append.mp mem with mem | mem
        · exact stops r mem
        · exact ⟨s, t, List.mem_singleton.mp mem, passes⟩
    | false =>
      refine ⟨[], ?_, by simp⟩
      simp only [waysMany, passes, Bool.false_eq_true, if_false, Piece.span,
        List.dropWhile_cons_of_neg (Bool.eq_false_iff.mp passes)]

theorem head?_waysMany (test : Symbol → Bool) (t : Text) :
    (waysMany test t).head? = some (Piece.span test t).2 := by
  obtain ⟨fewer, eq, -⟩ := waysMany_eq test t
  rw [eq, List.head?_cons]

/-- What cannot go on with a symbol that passes the test goes on behind all of them. -/
theorem flatMap_waysMany {test : Symbol → Bool} {next : Pattern}
    (stuck : ∀ s more, test s = true → next.ways (s :: more) = []) (t : Text) :
    (waysMany test t).flatMap next.ways = next.ways (Piece.span test t).2 := by
  obtain ⟨fewer, eq, stops⟩ := waysMany_eq test t
  have none : fewer.flatMap next.ways = [] := by
    rw [List.flatMap_eq_nil_iff]
    intro r mem
    obtain ⟨s, more, rfl, passes⟩ := stops r mem
    exact stuck s more passes
  rw [eq, List.flatMap_cons, none, List.append_nil]

/-- A pattern that begins with one symbol goes on behind it. -/
theorem ways_one_seq (test : Symbol → Bool) (next : Pattern) (s : Symbol) (rest : Text) :
    (seq (.one test) next).ways (s :: rest) = if test s then next.ways rest else [] := by
  simp only [ways]
  split <;> simp

theorem ways_only_seq (a : Symbol) (next : Pattern) (s : Symbol) (rest : Text) :
    (seq (only a) next).ways (s :: rest) = if s = a then next.ways rest else [] := by
  simp [only, ways_one_seq]

theorem ways_only (a s : Symbol) (rest : Text) :
    (only a).ways (s :: rest) = if s = a then [rest] else [] := by
  simp [only, ways]

/-- A quote opens a string up to the next quote, or else up to the end. -/
theorem first?_texts_quote (rest : Text) :
    first? texts (Symbol.quote :: rest) =
      some ((Piece.cutString rest).1.form, (Piece.cutString rest).2) := by
  have closed : (seq (many (· != Symbol.quote)) (only Symbol.quote)).ways rest =
      (only Symbol.quote).ways (Piece.span (· != Symbol.quote) rest).2 :=
    flatMap_waysMany (by simp [ways_only]) rest
  have unclosed : (seq (many (· != Symbol.quote)) finish).ways rest =
      finish.ways (Piece.span (· != Symbol.quote) rest).2 :=
    flatMap_waysMany (by simp [ways]) rest
  have stop := Piece.head_span (· != Symbol.quote) rest
  unfold Piece.cutString
  generalize Piece.span (· != Symbol.quote) rest = parts at closed unclosed stop
  obtain ⟨body, after⟩ := parts
  cases after with
  | nil =>
    rw [texts, first?_skip (by rw [ways_only_seq, if_pos rfl, closed]; rfl),
      first?_take (by rw [ways_only_seq, if_pos rfl, unclosed]; rfl)]
  | cons q after =>
    have quote : q = Symbol.quote := by simpa using stop q rfl
    rw [texts,
      first?_take (by rw [ways_only_seq, if_pos rfl, closed, ways_only, if_pos quote]; rfl)]

/-- Behind the digits of a number a fraction is taken if there is one. -/
theorem head?_ways_fraction (s : Symbol) (rest : Text) :
    ((maybe fraction).ways (Piece.span Symbol.isDigit rest).2).head? =
      some (Piece.cutNumber s rest).2 := by
  unfold Piece.cutNumber
  generalize Piece.span Symbol.isDigit rest = parts
  obtain ⟨whole, after⟩ := parts
  match after with
  | [] => rfl
  | [p] =>
    rw [ways, fraction, ways_only_seq]
    split <;> rfl
  | p :: d :: more =>
    rw [ways, fraction, ways_only_seq, ways_one_seq]
    by_cases point : p = Symbol.point
    · cases digit : d.isDigit with
      | true => simp [point, digit, ways, head?_waysMany]
      | false => simp [point, digit]
    · simp [point]

/-- A digit opens a number. -/
theorem first?_texts_digit (digit : s.isDigit = true) :
    first? texts (s :: rest) = some (.number, (Piece.cutNumber s rest).2) := by
  have noQuote : s ≠ Symbol.quote := Piece.not_quote_of_isDigit digit
  have fits : ((seq (many Symbol.isDigit) (maybe fraction)).ways rest).head? =
      some (Piece.cutNumber s rest).2 := by
    obtain ⟨fewer, eq, -⟩ := waysMany_eq Symbol.isDigit rest
    rw [ways, ways, eq, List.flatMap_cons, List.head?_append, head?_ways_fraction s rest,
      Option.some_or]
  rw [texts, first?_skip (by rw [ways_only_seq, if_neg noQuote]),
    first?_skip (by rw [ways_only_seq, if_neg noQuote]),
    first?_take (by rw [ways_one_seq, if_pos digit, fits])]

/-- A letter or a low line opens a word. -/
theorem first?_texts_word (start : s.isWordStart = true) :
    first? texts (s :: rest) = some (.word, (Piece.span Symbol.isWordPart rest).2) := by
  have noQuote : s ≠ Symbol.quote := by
    rintro rfl
    cases start
  have noDigit := Symbol.isDigit_of_isWordStart start
  rw [texts, first?_skip (by rw [ways_only_seq, if_neg noQuote]),
    first?_skip (by rw [ways_only_seq, if_neg noQuote]),
    first?_skip (by simp [ways_one_seq, noDigit]),
    first?_take (by rw [ways_one_seq, if_pos start]; exact head?_waysMany _ _)]

/-- Behind a symbol that opens no string, number or word, only a comment is left. -/
theorem first?_texts_other (noQuote : s ≠ Symbol.quote) (noDigit : s.isDigit = false)
    (noStart : s.isWordStart = false) :
    first? texts (s :: rest) = if Piece.opensComment s rest then
      some (.comment, (Piece.span (· != Symbol.lineFeed) rest).2) else none := by
  have comment : first? texts (s :: rest) = first? [(.comment, .seq (only (.char '/'))
      (.seq (only (.char '/')) (.many (· != Symbol.lineFeed))))] (s :: rest) := by
    rw [texts, first?_skip (by rw [ways_only_seq, if_neg noQuote]),
      first?_skip (by rw [ways_only_seq, if_neg noQuote]),
      first?_skip (by simp [ways_one_seq, noDigit]), first?_skip (by simp [ways_one_seq, noStart])]
  rw [comment]
  split
  · next opens =>
    simp only [Piece.opensComment, Bool.and_eq_true, beq_iff_eq] at opens
    obtain ⟨rfl, head⟩ := opens
    obtain ⟨more, rfl⟩ := List.head?_eq_some_iff.mp head
    refine first?_take ?_
    rw [ways_only_seq, if_pos rfl, ways_only_seq, if_pos rfl]
    exact head?_waysMany _ _
  · next other =>
    refine first?_skip ?_
    rw [ways_only_seq]
    split
    · next slash =>
      cases rest with
      | nil => rfl
      | cons a more =>
        rw [ways_only_seq, if_neg]
        rintro rfl
        exact other (by simp [Piece.opensComment, slash])
    · rfl

theorem ofPair?_of_mem_doubles :
    ∀ entry ∈ doubles, Kind.ofPair? (.char entry.1) (.char '=') = some entry.2 := by
  decide

theorem ofSymbol?_of_mem_singles :
    ∀ entry ∈ singles, Kind.ofSymbol? (.char entry.1) = some entry.2 := by
  decide

/-- Two symbols that make a mark are taken as that mark. -/
theorem first?_doubles (a : Symbol) (rest : Text) :
    first? (doubles.map fun (c, kind) => (.mark kind, .seq (only (.char c)) (only (.char '='))))
        (a :: rest) =
      (rest.head?.bind (Kind.ofPair? a)).map fun kind => (.mark kind, rest.tail) := by
  cases made : rest.head?.bind (Kind.ofPair? a) with
  | none =>
    refine first?_eq_none fun entry tried => ?_
    obtain ⟨⟨c, kind⟩, mem, rfl⟩ := List.mem_map.mp tried
    have double := ofPair?_of_mem_doubles _ mem
    simp only [ways_only_seq]
    split
    · next first =>
      cases rest with
      | nil => rfl
      | cons b after =>
        rw [ways_only, if_neg]
        rintro rfl
        rw [first, List.head?_cons, Option.bind_some, double] at made
        cases made
    · rfl
  | some kind =>
    obtain ⟨b, head, pair⟩ := Option.bind_eq_some_iff.mp made
    obtain ⟨after, rfl⟩ := List.head?_eq_some_iff.mp head
    unfold Kind.ofPair? at pair
    split at pair
    case h_5 => cases pair
    all_goals
      obtain rfl := Option.some.inj pair
      rfl

/-- A symbol that is a mark by itself is taken as that mark. -/
theorem first?_singles (s : Symbol) (rest : Text) :
    first? (singles.map fun (c, kind) => (.mark kind, only (.char c))) (s :: rest) =
      (Kind.ofSymbol? s).map fun kind => (.mark kind, rest) := by
  cases single : Kind.ofSymbol? s with
  | none =>
    refine first?_eq_none fun entry tried => ?_
    obtain ⟨⟨c, kind⟩, mem, rfl⟩ := List.mem_map.mp tried
    have isMark : Kind.ofSymbol? (.char c) = some kind := ofSymbol?_of_mem_singles _ mem
    simp only [ways_only]
    rw [if_neg]
    rintro rfl
    rw [isMark] at single
    cases single
  | some kind =>
    unfold Kind.ofSymbol? at single
    split at single
    case h_16 => cases single
    all_goals
      obtain rfl := Option.some.inj single
      rfl

/-- A symbol that opens nothing else is a mark, alone or with the next one, or it is unknown. -/
theorem first?_cutMark (noFeed : s ≠ Symbol.lineFeed) (noBlank : s.isBlank = false) :
    first? (marks ++ remainders) (s :: rest) =
      some ((Piece.cutMark s rest).1.form, (Piece.cutMark s rest).2) := by
  have unknown : first? remainders (s :: rest) = some (.unknown, rest) := by
    rw [remainders, first?_skip (by rw [ways_only, if_neg noFeed]),
      first?_skip (by simp [ways_one_seq, noBlank]),
      first?_take (r := rest) (by simp [ways, noFeed])]
  have single : (first? (singles.map fun (c, kind) => (.mark kind, only (.char c)))
      (s :: rest)).or (first? remainders (s :: rest)) =
      some ((Piece.cutSymbol s rest).1.form, (Piece.cutSymbol s rest).2) := by
    rw [first?_singles, unknown, Piece.cutSymbol]
    cases Kind.ofSymbol? s <;> rfl
  rw [marks, first?_append, first?_append, first?_doubles, Option.or_assoc, single]
  cases rest with
  | nil => rfl
  | cons b after =>
    rw [Piece.cutMark, List.head?_cons, Option.bind_some]
    cases Kind.ofPair? s b <;> rfl

theorem first?_blank (blank : s.isBlank = true) :
    first? (marks ++ remainders) (s :: rest) =
      some (.blank, (Piece.span Symbol.isBlank rest).2) := by
  have noFeed : s ≠ Symbol.lineFeed := by
    rintro rfl
    cases blank
  have noMark : Kind.ofSymbol? s = none := by
    cases h : Kind.ofSymbol? s with
    | none => rfl
    | some kind =>
      rw [(Symbol.ends_of_ofSymbol? h).2.2.2.2] at blank
      cases blank
  have noPair : rest.head?.bind (Kind.ofPair? s) = none := by
    cases rest with
    | nil => rfl
    | cons b after =>
      cases h : Kind.ofPair? s b with
      | none => exact h
      | some kind =>
        obtain ⟨first, isMark, -⟩ := Symbol.exists_ofSymbol?_of_ofPair? h
        rw [noMark] at isMark
        cases isMark
  rw [marks, first?_append, first?_append, first?_doubles, noPair, first?_singles, noMark,
    remainders, first?_skip (by rw [ways_only, if_neg noFeed]),
    first?_take (by rw [ways_one_seq, if_pos blank]; exact head?_waysMany _ _)]
  rfl

/-- **The first pattern that fits takes the first piece.** -/
theorem first?_alternatives (s : Symbol) (rest : Text) :
    first? alternatives (s :: rest) = some ((Piece.cut s rest).1.form, (Piece.cut s rest).2) := by
  rw [alternatives, first?_append]
  unfold Piece.cut
  split
  · next quote => rw [quote, first?_texts_quote, Option.some_or]
  next noQuote =>
  split
  · next digit => rw [first?_texts_digit digit, Option.some_or, Piece.form_cutNumber]
  next noDigit =>
  rw [Bool.not_eq_true] at noDigit
  split
  · next start => rw [first?_texts_word start, Option.some_or]; rfl
  next noStart =>
  rw [Bool.not_eq_true] at noStart
  rw [first?_texts_other noQuote noDigit noStart]
  split
  · rfl
  rw [Option.none_or]
  split
  · next feed => rw [feed]; rfl
  next noFeed =>
  split
  · next blank => rw [first?_blank blank]; rfl
  · next noBlank => exact first?_cutMark noFeed (Bool.eq_false_iff.mpr noBlank)

end First

end Pattern

end Scriptlet
