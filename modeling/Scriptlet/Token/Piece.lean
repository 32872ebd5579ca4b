/-
Scriptlet.Token.Piece — a source cut into pieces.

A piece is the longest slice, from where the one before ended, that one of the
language's patterns covers: a string, a number, a word, a comment, a mark, a line
feed or a run of blanks. A quote without a partner takes the rest of the source,
and a symbol that starts nothing is a piece of its own. The pieces of a source
put together are the source again.

  §1 Pieces.
  §2 Cutting off the first piece.
  §3 All pieces.
-/
import Scriptlet.Token.Basic

namespace Scriptlet

/-! ## §1 Pieces -/

/-- What a piece of source is. -/
inductive Piece.Form where
  /-- A string with both quotes. -/
  | string
  /-- A string that the source ends in. -/
  | openString
  /-- Digits, perhaps with a point and more digits. -/
  | number
  /-- A reserved word or a name. -/
  | word
  /-- A remark up to the end of the line. -/
  | comment
  /-- A mark of one or two symbols. -/
  | mark (kind : Token.Kind)
  /-- A line feed. -/
  | newline
  /-- Blanks inside a line. -/
  | blank
  /-- A symbol that starts no token. -/
  | unknown
deriving DecidableEq, Repr, Inhabited

/-- A piece of source. -/
structure Piece where
  /-- What it is. -/
  form : Piece.Form
  /-- The slice it covers. -/
  text : Text
deriving DecidableEq, Repr, Inhabited

namespace Piece

/-! ## §2 Cutting off the first piece -/

/-- A slice and what follows it: as much as passes the test. -/
def span (test : Symbol → Bool) (t : Text) : Text × Text := (t.takeWhile test, t.dropWhile test)

/-- Behind an opening quote: the string up to the next quote, or the rest of the source. -/
def cutString (rest : Text) : Piece × Text :=
  match span (· != Symbol.quote) rest with
  | (body, q :: after) => (⟨.string, Symbol.quote :: (body ++ [q])⟩, after)
  | (body, []) => (⟨.openString, Symbol.quote :: body⟩, [])

/-- Behind a digit: more digits, and a point if a digit follows it. -/
def cutNumber (first : Symbol) (rest : Text) : Piece × Text :=
  match span Symbol.isDigit rest with
  | (whole, p :: d :: after) =>
    if p = Symbol.point ∧ d.isDigit then
      let (fraction, remaining) := span Symbol.isDigit after
      (⟨.number, first :: (whole ++ p :: d :: fraction)⟩, remaining)
    else (⟨.number, first :: whole⟩, p :: d :: after)
  | (whole, after) => (⟨.number, first :: whole⟩, after)

/-- The piece of a given form made of the first symbol and those after it that pass the test. -/
def cutRun (form : Form) (test : Symbol → Bool) (first : Symbol) (rest : Text) : Piece × Text :=
  (⟨form, first :: (span test rest).1⟩, (span test rest).2)

/-- A mark of one symbol, or else a symbol that starts nothing. -/
def cutSymbol (first : Symbol) (rest : Text) : Piece × Text :=
  match Token.Kind.ofSymbol? first with
  | some kind => (⟨.mark kind, [first]⟩, rest)
  | none => (⟨.unknown, [first]⟩, rest)

/-- A mark of two symbols, or else what the first symbol is alone. -/
def cutMark (first : Symbol) : Text → Piece × Text
  | [] => cutSymbol first []
  | second :: after =>
    match Token.Kind.ofPair? first second with
    | some kind => (⟨.mark kind, [first, second]⟩, after)
    | none => cutSymbol first (second :: after)

/-- Two slashes open a comment. -/
def opensComment (first : Symbol) (rest : Text) : Bool :=
  first == .char '/' && rest.head? == some (.char '/')

/-- The first piece of a source and what follows it. -/
def cut (first : Symbol) (rest : Text) : Piece × Text :=
  if first = Symbol.quote then cutString rest
  else if first.isDigit then cutNumber first rest
  else if first.isWordStart then cutRun .word Symbol.isWordPart first rest
  else if opensComment first rest then cutRun .comment (· != Symbol.lineFeed) first rest
  else if first = Symbol.lineFeed then (⟨.newline, [first]⟩, rest)
  else if first.isBlank then cutRun .blank Symbol.isBlank first rest
  else cutMark first rest

/-! ### Cutting loses nothing -/

theorem span_append (test : Symbol → Bool) (t : Text) : (span test t).1 ++ (span test t).2 = t :=
  List.takeWhile_append_dropWhile

theorem cutString_append (rest : Text) :
    (cutString rest).1.text ++ (cutString rest).2 = Symbol.quote :: rest := by
  have parts := span_append (· != Symbol.quote) rest
  unfold cutString
  generalize span (· != Symbol.quote) rest = s at parts
  obtain ⟨body, after⟩ := s
  cases after <;> simp_all

theorem cutNumber_append (first : Symbol) (rest : Text) :
    (cutNumber first rest).1.text ++ (cutNumber first rest).2 = first :: rest := by
  have parts := span_append Symbol.isDigit rest
  unfold cutNumber
  generalize span Symbol.isDigit rest = s at parts
  obtain ⟨whole, after⟩ := s
  match after with
  | [] => simp_all
  | [p] => simp_all
  | p :: d :: more =>
    have tail := span_append Symbol.isDigit more
    simp only at parts ⊢
    split <;> simp_all

theorem cutRun_append (form : Form) (test : Symbol → Bool) (first : Symbol) (rest : Text) :
    (cutRun form test first rest).1.text ++ (cutRun form test first rest).2 = first :: rest := by
  simp [cutRun, span_append]

theorem cutSymbol_append (first : Symbol) (rest : Text) :
    (cutSymbol first rest).1.text ++ (cutSymbol first rest).2 = first :: rest := by
  unfold cutSymbol
  split <;> rfl

theorem cutMark_append (first : Symbol) (rest : Text) :
    (cutMark first rest).1.text ++ (cutMark first rest).2 = first :: rest := by
  cases rest with
  | nil => exact cutSymbol_append first []
  | cons second after =>
    simp only [cutMark]
    split
    · rfl
    · exact cutSymbol_append first (second :: after)

/-- The first piece and what follows it make up the source. -/
theorem cut_append (first : Symbol) (rest : Text) :
    (cut first rest).1.text ++ (cut first rest).2 = first :: rest := by
  unfold cut
  split
  · next h => rw [h]; exact cutString_append rest
  split
  · exact cutNumber_append first rest
  split
  · exact cutRun_append ..
  split
  · exact cutRun_append ..
  split
  · rfl
  split
  · exact cutRun_append ..
  · exact cutMark_append first rest

/-- A piece is never empty: it begins with the symbol at which it was cut. -/
theorem cut_text_head (first : Symbol) (rest : Text) :
    (cut first rest).1.text.head? = some first := by
  unfold cut cutString cutNumber cutMark cutSymbol cutRun
  repeat' split
  all_goals simp_all

/-- What follows the first piece is shorter than the source. -/
theorem cut_length (first : Symbol) (rest : Text) :
    (cut first rest).2.length < (first :: rest).length := by
  have parts := congrArg List.length (cut_append first rest)
  have head := cut_text_head first rest
  cases text : (cut first rest).1.text with
  | nil => simp [text] at head
  | cons s more =>
    simp only [text, List.length_append, List.length_cons] at parts
    simp only [List.length_cons]
    omega

end Piece

/-! ## §3 All pieces -/

/-- The pieces of a source in order. -/
def Text.pieces : Text → List Piece
  | [] => []
  | first :: rest => (Piece.cut first rest).1 :: pieces (Piece.cut first rest).2
termination_by t => t.length
decreasing_by exact Piece.cut_length first rest

/-- The pieces of a source put together are the source. -/
theorem Text.flatMap_pieces (t : Text) : t.pieces.flatMap Piece.text = t := by
  fun_induction Text.pieces t with
  | case1 => rfl
  | case2 first rest ih => rw [List.flatMap_cons, ih, Piece.cut_append]

end Scriptlet
