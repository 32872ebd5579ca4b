/-
Scriptlet.Proofs.Decimal.ReadBack — printed numbers read back.

What is printed of a number and what is read as one are told by rules that do not
know of each other. Printing takes the fewest digits that tell the double, with zeros
to fill the gap up to the point, and may leave out a final `.0`; reading takes digits
with a point among them, and rounds the decimal. Without a minus and a power of ten
the two fit: both forms of a plain double are numbers of a source, and each stands
for that very double (`denotes_fullForm`, `denotes_briefForm`).

  §1 Numbers of a source.
  §2 The forms of plain doubles.
  §3 A program that prints a number.
-/
import Scriptlet.Proofs.Decimal.Faithful
import Scriptlet.Proofs.Token.Munch
import Scriptlet.Proofs.Token.Seam
import Scriptlet.Session

namespace Scriptlet

open Token (Kind)

/-! ## §1 Numbers of a source -/

/-- `t.Denotes x`: the text has the form of a number, and `x` is the double that it stands for. -/
structure Text.Denotes (t : Text) (x : Double) : Prop where
  follows : Piece.Form.number.Matches t
  value : Piece.numberValue t = x

namespace Text

variable {t rest : Text} {x : Double} {whole fraction : List (Fin 10)}

/-- A number is a piece of its own before anything that is neither a digit nor a point. -/
theorem pieces_of_number (follows : Piece.Form.number.Matches t)
    (ends : ∀ s ∈ rest.head?, s.isDigit = false ∧ s ≠ Symbol.point) :
    pieces (t ++ rest) = ⟨.number, t⟩ :: pieces rest := by
  obtain ⟨first, more, rfl, hc⟩ := Piece.cut_of_number follows ends
  rw [List.cons_append, pieces, hc]

/-- Digits, with a point if there are some behind it, have the form of a number. -/
theorem matches_ofDigits (nonempty : whole ≠ []) :
    Piece.Form.number.Matches (ofDigits whole fraction) := by
  have digits : ∀ (ds : List (Fin 10)), ∀ s ∈ ds.map Symbol.ofDigit, s.isDigit = true := by
    simp [Symbol.isDigit_ofDigit]
  obtain ⟨d, whole, rfl⟩ := List.exists_cons_of_ne_nil nonempty
  refine ⟨Symbol.ofDigit d, whole.map Symbol.ofDigit, Symbol.isDigit_ofDigit d, digits whole, ?_⟩
  cases fraction with
  | nil => exact .inl (by simp [ofDigits])
  | cons e fraction =>
    exact .inr ⟨_, _, Symbol.isDigit_ofDigit e, digits fraction, by simp [ofDigits]⟩

/-- Digits stand for the double nearest to their decimal. -/
theorem denotes_ofDigits {m : Nat} (nonempty : whole ≠ []) (le : m ≤ Double.infinite)
    (nearest : Double.IsNearest (Decimal.ofDigits whole fraction).value m) :
    (ofDigits whole fraction).Denotes (.ofMagnitude false m) := by
  refine ⟨matches_ofDigits nonempty, ?_⟩
  rw [Piece.numberValue_ofDigits]
  exact (Decimal.toDouble_eq_iff le).mpr nearest

/-- A number is in one line. -/
theorem Denotes.lineFeeds (h : t.Denotes x) : t.lineFeeds = 0 := by
  obtain ⟨whole, fraction, -, rfl⟩ := Piece.exists_digits h.follows
  have noFeed : ∀ d, Symbol.ofDigit d ≠ Symbol.lineFeed := by decide
  have noFeeds : ∀ ds : List (Fin 10), Symbol.lineFeed ∉ ds.map Symbol.ofDigit := fun ds => by
    simpa using fun d _ => noFeed d
  refine List.count_eq_zero.mpr fun feed => ?_
  rcases List.mem_append.mp feed with feed | feed
  · exact noFeeds whole feed
  · split at feed
    · cases feed
    · rcases List.mem_cons.mp feed with feed | feed
      · exact absurd feed (by decide)
      · exact noFeeds fraction feed

/-- A number alone is read as one token. -/
theorem Denotes.lex (h : t.Denotes x) :
    t.lex = ⟨[⟨.number, t, some (.number x), 1, 0⟩], .ending 1, []⟩ := by
  have alone : pieces (t ++ []) = [⟨.number, t⟩] := by
    rw [pieces_of_number h.follows (by simp), pieces]
  rw [List.append_nil] at alone
  have line : (Position.start.advance t).line = 1 := by
    rw [Position.line_advance, h.lineFeeds]
    rfl
  have token : Piece.token? .start ⟨.number, t⟩ = some ⟨.number, t, some (.number x), 1, 0⟩ := by
    rw [← h.value, ← line]
    rfl
  rw [Text.lex_eq_located, alone, line]
  simp only [Piece.located, List.filterMap_cons, token]
  rfl

end Text

/-! ## §2 The forms of plain doubles -/

namespace Text

theorem map_digitChars (ds : List (Fin 10)) :
    (digitChars ds).map Symbol.char = ds.map Symbol.ofDigit :=
  List.map_map

theorem map_ofDigits (whole fraction : List (Fin 10)) :
    (digitChars whole ++ if fraction = [] then [] else '.' :: digitChars fraction).map Symbol.char =
      ofDigits whole fraction := by
  rw [List.map_append, map_digitChars, ofDigits]
  split
  · rfl
  · rw [List.map_cons, map_digitChars]
    rfl

end Text

/-- A single zero behind the point changes nothing. -/
theorem Decimal.value_ofDigits_zero (whole : List (Fin 10)) :
    (ofDigits whole [0]).value = (ofDigits whole []).value := by
  have same := Numeral.digitsNumber_atLeastOne whole [] 0
  simpa [value, ofDigits, digitsNumber, Numeral.atLeastOne] using same

namespace Double

variable {x : Double}

theorem lt_infinite_of_isPlain (plain : x.isPlain = true) : x.magnitude < infinite := by
  have border : tenMillion.magnitude < infinite := by decide +kernel
  rcases x.isPlain_iff.mp plain with zero | ⟨-, lt⟩
  · rw [zero]
    decide
  · exact ((lt_tenMillion_iff _).mpr lt).trans border

/-- Without a minus, both forms of a plain double are digits, with a point if some are behind it;
and their decimal is nearest to the double. -/
theorem exists_ofDigits (positive : x.isNegative = false) (plain : x.isPlain = true) :
    ∃ whole fraction, whole ≠ [] ∧
      x.fullForm.map Symbol.char = Text.ofDigits whole fraction ∧
      x.briefForm.map Symbol.char =
        Text.ofDigits whole (if fraction = [0] then [] else fraction) ∧
      IsNearest (Decimal.ofDigits whole fraction).value x.magnitude := by
  obtain ⟨s, text, sign, form, shortest⟩ := exists_spelling (lt_infinite_of_isPlain plain)
  rw [if_pos plain] at form
  have unsigned : ∀ body, Spelling.signed s.negative body = body := by
    rw [sign, positive]
    exact fun _ => rfl
  refine ⟨s.whole, s.fraction, form.whole, ?_, ?_, ?_⟩
  · rw [← Text.map_ofDigits, text, form.text_eq, unsigned, if_neg form.fraction]
  · rw [← Text.map_ofDigits, briefForm, text, form.dropPointZero_text, unsigned]
    split
    · rfl
    · rw [if_neg form.fraction]
  · have decimal : s.decimal = Decimal.ofDigits s.whole s.fraction := by
      rw [Spelling.decimal, Spelling.exponent, form.power, Int.zero_sub]
      rfl
    rw [← decimal]
    exact shortest.reads

/-- The full form of a plain double without a minus stands for the double. -/
theorem denotes_fullForm (positive : x.isNegative = false) (plain : x.isPlain = true) :
    Text.Denotes (x.fullForm.map .char) x := by
  obtain ⟨whole, fraction, nonempty, full, -, nearest⟩ := exists_ofDigits positive plain
  have denotes := Text.denotes_ofDigits nonempty (lt_infinite_of_isPlain plain).le nearest
  rwa [← positive, x.ofMagnitude_magnitude, ← full] at denotes

/-- And so does its brief form. -/
theorem denotes_briefForm (positive : x.isNegative = false) (plain : x.isPlain = true) :
    Text.Denotes (x.briefForm.map .char) x := by
  obtain ⟨whole, fraction, nonempty, -, brief, nearest⟩ := exists_ofDigits positive plain
  have nearest : IsNearest
      (Decimal.ofDigits whole (if fraction = [0] then [] else fraction)).value x.magnitude := by
    split
    · next zero => rwa [zero, Decimal.value_ofDigits_zero] at nearest
    · exact nearest
  have denotes := Text.denotes_ofDigits nonempty (lt_infinite_of_isPlain plain).le nearest
  rwa [← positive, x.ofMagnitude_magnitude, ← brief] at denotes

end Double

/-! ## §3 A program that prints a number -/

/-- The program that prints an expression, by the text of the expression. -/
def Text.printingOf (t : Text) : Text := ofString "print " ++ t ++ ofString ";"

namespace Text

variable {t : Text} {x : Double}

theorem Denotes.pieces_printingOf (h : t.Denotes x) :
    (printingOf t).pieces = [⟨.word, ofString "print"⟩, ⟨.blank, ofString " "⟩, ⟨.number, t⟩,
      ⟨.mark .semicolon, ofString ";"⟩] := by
  have source : printingOf t = ofString "print" ++ .char ' ' :: (t ++ ofString ";") := by
    simp [printingOf, ofString]
  have word : Piece.Form.word.Matches (ofString "print") :=
    ⟨.char 'p', ofString "rint", rfl, by decide, by decide⟩
  have stops : Stops (.char ' ' :: (t ++ ofString ";")) := by
    simp [Stops, Symbol.isWhite, Symbol.isBlank, Symbol.holds]
  have blank : Piece.cut (.char ' ') (t ++ ofString ";") =
      (⟨.blank, ofString " "⟩, t ++ ofString ";") := by
    obtain ⟨whole, fraction, nonempty, rfl⟩ := Piece.exists_digits h.follows
    obtain ⟨d, whole, rfl⟩ := List.exists_cons_of_ne_nil nonempty
    have noBlank : ∀ d, (Symbol.ofDigit d).isBlank = false := by decide
    rw [Piece.cut_of_blank (by decide), Piece.cutRun, ofDigits, List.map_cons]
    simp only [Piece.span, List.cons_append, List.takeWhile_cons, List.dropWhile_cons, noBlank]
    rfl
  have ends : ∀ s ∈ (ofString ";").head?, s.isDigit = false ∧ s ≠ Symbol.point := by decide
  have mark : Piece.cut (.char ';') [] = (⟨.mark .semicolon, ofString ";"⟩, []) := rfl
  rw [source, pieces_of_matches rfl word stops, pieces, blank]
  show _ :: _ :: pieces (t ++ ofString ";") = _
  rw [pieces_of_number h.follows ends]
  show _ :: _ :: _ :: pieces [.char ';'] = _
  rw [pieces, mark, pieces]

/-- The tokens of a program that prints a number. -/
def printingOfTokens (t : Text) (x : Double) : List Token :=
  let after := Position.advance ⟨1, 6⟩ t
  [⟨.printWord, ofString "print", none, 1, 0⟩,
   ⟨.number, t, some (.number x), after.line, 6⟩,
   ⟨.semicolon, ofString ";", none, after.line, after.column⟩]

theorem Denotes.parse_printingOf (h : t.Denotes x) :
    (printingOf t).parse = ⟨printingOfTokens t x ++
        [.ending (Position.start.advance (printingOf t)).line],
      [some (.print (.literal (.number x)))], []⟩ := by
  have lexed : (printingOf t).lex = ⟨printingOfTokens t x,
      .ending (Position.start.advance (printingOf t)).line, []⟩ := by
    rw [Text.lex_eq_located, h.pieces_printingOf, printingOfTokens, ← h.value]
    rfl
  rw [parse, lexed]
  rfl

theorem listing_printingOf (t : Text) (x : Double) (line : Int) :
    (printingOfTokens t x ++ [Token.ending line]).flatMap (fun t => Text.line t.listing) =
      ofString "PRINT print null\nNUMBER " ++ t ++ ofString " " ++ x.fullForm.map .char ++
      ofString "\nSEMICOLON ; null\nEOF  null\n" := by
  have labels : Kind.label .printWord = "PRINT" ∧ Kind.label .number = "NUMBER" ∧
      Kind.label .semicolon = "SEMICOLON" ∧ Kind.label .finish = "EOF" := by decide
  simp [printingOfTokens, Text.line, Token.listing, Token.ending, labels, Token.Literal.listing]
  rfl

end Text

/-- A session lists the number as it is written and in its full form, shows it in the tree if asked
to, and prints it. -/
theorem Session.run_printingOf {s : Session} (clear : s.hadError = false) {t : Text} {x : Double}
    (h : t.Denotes x) :
    (s.run t.printingOf).1 = s ∧ (s.run t.printingOf).2.stderr = [] ∧
    (s.run t.printingOf).2.printed = Text.line (Value.number x).text ∧
    (s.run t.printingOf).2.stdout =
      Text.ofString "PRINT print null\nNUMBER " ++ t ++ Text.ofString " " ++
      x.fullForm.map .char ++ Text.ofString "\nSEMICOLON ; null\nEOF  null\n" ++
      (if s.debug then Text.ofString "\nAST:\n\n(print " ++ (Value.number x).text ++
        Text.ofString ")\n \n" else []) ++
      Text.line (Value.number x).text := by
  obtain ⟨same, stderr, printed, stdout⟩ := run_print clear h.parse_printingOf
  refine ⟨same, stderr, printed, ?_⟩
  rw [stdout, Text.listing_printingOf]
  rfl

/-- **Printed numbers read back.** Let a double be the zero without a minus or a number from 10^-3
up to but not including 10^7. Each of its forms is read without a complaint as one token, a number
that is all of the text and stands for that very double, and then the source ends. In a new session
the program that prints the brief form prints it again, and nothing else happens. -/
theorem Double.forms_read_back (x : Double) (positive : x.isNegative = false)
    (plain : x.magnitude = 0 ∨ 1 / 1000 ≤ valueOf x.magnitude ∧ valueOf x.magnitude < 10 ^ 7) :
    (Value.number x).text.lex =
      ⟨[⟨.number, (Value.number x).text, some (.number x), 1, 0⟩], .ending 1, []⟩ ∧
    Text.lex (x.fullForm.map .char) =
      ⟨[⟨.number, x.fullForm.map .char, some (.number x), 1, 0⟩], .ending 1, []⟩ ∧
    ∀ debug, let ran := (Session.start debug).run (Value.number x).text.printingOf
      ran.1 = .start debug ∧ ran.2.stderr = [] ∧
      ran.2.printed = Text.line (Value.number x).text ∧
      ran.2.stdout =
        Text.ofString "PRINT print null\nNUMBER " ++ (Value.number x).text ++ Text.ofString " " ++
        x.fullForm.map .char ++ Text.ofString "\nSEMICOLON ; null\nEOF  null\n" ++
        (if debug then Text.ofString "\nAST:\n\n(print " ++ (Value.number x).text ++
          Text.ofString ")\n \n" else []) ++
        Text.line (Value.number x).text := by
  have plain := x.isPlain_iff.mpr plain
  have brief := denotes_briefForm positive plain
  have full := denotes_fullForm positive plain
  exact ⟨brief.lex, full.lex, fun debug => Session.run_printingOf rfl brief⟩

/-- The zero is read with and without its `.0`, the greatest of these doubles has all of its digits,
and the least one is printed as the program has it. -/
theorem Double.forms_read_back_borders :
    Text.lex "0" = ⟨[⟨.number, "0", some (.number ⟨0⟩), 1, 0⟩], .ending 1, []⟩ ∧
    Text.lex "0.0" = ⟨[⟨.number, "0.0", some (.number ⟨0⟩), 1, 0⟩], .ending 1, []⟩ ∧
    Text.lex "9999999.999999998" =
      ⟨[⟨.number, "9999999.999999998", some (.number ⟨0x416312CFFFFFFFFF⟩), 1, 0⟩], .ending 1, []⟩ ∧
    ((Session.start false).run "print 0.001;").2.printed = "0.001\n" := by
  have zero : (⟨0⟩ : Double).isPlain = true := by decide +kernel
  have greatest : (⟨0x416312CFFFFFFFFF⟩ : Double).isPlain = true := by decide +kernel
  have least : (⟨0x3F50624DD2F1A9FC⟩ : Double).isPlain = true := by decide +kernel
  obtain ⟨brief, full, -⟩ := forms_read_back ⟨0⟩ (by decide) ((isPlain_iff _).mp zero)
  obtain ⟨long, -, -⟩ :=
    forms_read_back ⟨0x416312CFFFFFFFFF⟩ (by decide) ((isPlain_iff _).mp greatest)
  obtain ⟨-, -, ran⟩ := forms_read_back ⟨0x3F50624DD2F1A9FC⟩ (by decide) ((isPlain_iff _).mp least)
  obtain ⟨-, -, printed, -⟩ := ran false
  have text : (Value.number ⟨0x416312CFFFFFFFFF⟩).text = "9999999.999999998" := by decide +kernel
  have text' : (Value.number ⟨0x3F50624DD2F1A9FC⟩).text = "0.001" := by decide +kernel
  rw [text] at long
  rw [text'] at printed
  exact ⟨brief, full, long, printed⟩

end Scriptlet
