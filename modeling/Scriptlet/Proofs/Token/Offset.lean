/-
Scriptlet.Proofs.Token.Offset — lines and columns told by offsets.

The counter of a reader is always at the position it has come to (`Counter.At`).
What that position has to be can be said of the source alone: the line counts the
line feeds before an offset, and the column starts behind the last of them
(`line_positionAt`, `column_positionAt`). Each piece has the offset that the pieces
before it add up to (`Text.placed`), so tokens and diagnostics have exactly the
lines and columns of their offsets (`forall₂_tokenAt`, `forall₂_diagnosticAt`).

  §1 Offsets.
  §2 The offsets of pieces.
  §3 Tokens and diagnostics at their offsets.
-/
import Scriptlet.Proofs.Token.Location
import Scriptlet.Proofs.Token.Munch

namespace Scriptlet

/-! ## §1 Offsets -/

namespace Text

/-- The offset at which the line of an offset starts: that behind the last line feed before it, or
zero if there is none. -/
def lineStart (t : Text) : Nat → Nat
  | 0 => 0
  | i + 1 => if t[i]? = some Symbol.lineFeed then i + 1 else t.lineStart i

/-- The position behind the first symbols of a text. -/
def positionAt (t : Text) (i : Nat) : Position := Position.start.advance (t.take i)

theorem line_positionAt (t : Text) (i : Nat) :
    (t.positionAt i).line = 1 + lineFeeds (t.take i) :=
  Position.line_advance _ _

theorem positionAt_succ {t : Text} {i : Nat} (h : i < t.length) :
    t.positionAt (i + 1) = (t.positionAt i).step t[i] := by
  rw [positionAt, List.take_succ_eq_append_getElem h, Position.advance_append]
  rfl

/-- The column at an offset counts from the start of its line. -/
theorem column_positionAt {t : Text} {i : Nat} (h : i ≤ t.length) :
    t.lineStart i + (t.positionAt i).column = i := by
  induction i with
  | zero => rfl
  | succ i ih =>
    have ih := ih (Nat.le_of_succ_le h)
    rw [positionAt_succ h, lineStart, List.getElem?_eq_getElem h, Position.step]
    by_cases feed : t[i] = Symbol.lineFeed
    · simp [feed]
    · simp only [Option.some.injEq, feed, if_false]
      omega

end Text

/-! ## §2 The offsets of pieces -/

/-- Pieces with their offsets, the first of them at `start`. -/
def Piece.placed (start : Nat) : List Piece → List (Nat × Piece)
  | [] => []
  | piece :: rest => (start, piece) :: placed (start + piece.text.length) rest

/-- The pieces of a source with the offsets at which they start. -/
def Text.placed (source : Text) : List (Nat × Piece) := Piece.placed 0 source.pieces

namespace Piece

/-- A piece starts where the pieces before it end. -/
theorem split_of_mem_placed {start s : Nat} {pieces : List Piece} {piece : Piece}
    (h : (s, piece) ∈ placed start pieces) :
    ∃ before after, pieces = before ++ piece :: after ∧
      s = start + (before.flatMap text).length := by
  induction pieces generalizing start with
  | nil => cases h
  | cons first rest ih =>
    rcases List.mem_cons.mp h with h | h
    · obtain ⟨rfl, rfl⟩ := Prod.mk.inj h
      exact ⟨[], rest, rfl, rfl⟩
    · obtain ⟨before, after, rfl, rfl⟩ := ih h
      refine ⟨first :: before, after, rfl, ?_⟩
      rw [List.flatMap_cons, List.length_append, Nat.add_assoc]

/-- The position of a piece is that of its offset. -/
theorem located_eq_map_placed (front : Text) (pieces : List Piece) :
    located (Position.start.advance front) pieces =
      (placed front.length pieces).map fun (s, piece) =>
        ((front ++ pieces.flatMap text).positionAt s, piece) := by
  induction pieces generalizing front with
  | nil => rfl
  | cons piece rest ih =>
    have here : (front ++ (piece :: rest).flatMap text).positionAt front.length =
        Position.start.advance front := by
      rw [Text.positionAt, List.take_left]
    have behind := ih (front ++ piece.text)
    rw [Position.advance_append, List.length_append, List.append_assoc] at behind
    rw [located, placed, List.map_cons, behind, ← here, List.flatMap_cons]

end Piece

namespace Text

variable {source : Text} {s : Nat} {piece : Piece}

theorem located_pieces (source : Text) :
    Piece.located .start source.pieces =
      source.placed.map fun (s, piece) => (source.positionAt s, piece) := by
  have located := Piece.located_eq_map_placed [] source.pieces
  rwa [List.nil_append, flatMap_pieces] at located

/-- A piece with its offset is the slice of the source that starts there. -/
theorem slice_of_mem_placed (h : (s, piece) ∈ source.placed) :
    ∃ before after, source = before ++ piece.text ++ after ∧ s = before.length := by
  obtain ⟨before, after, pieces, offset⟩ := Piece.split_of_mem_placed h
  refine ⟨before.flatMap Piece.text, after.flatMap Piece.text, ?_, by rw [offset, Nat.zero_add]⟩
  conv => lhs; rw [← flatMap_pieces source, pieces]
  simp

/-- Reading on from the start of a piece leads to the position of its end. -/
theorem advance_positionAt (h : (s, piece) ∈ source.placed) :
    (source.positionAt s).advance piece.text = source.positionAt (s + piece.text.length) := by
  obtain ⟨before, after, rfl, rfl⟩ := slice_of_mem_placed h
  rw [positionAt, positionAt, ← List.length_append, List.take_left, List.append_assoc,
    List.take_left, Position.advance_append]

end Text

/-! ## §3 Tokens and diagnostics at their offsets -/

/-- The forms that are reported. -/
def Piece.Form.isFault : Piece.Form → Bool
  | .unknown | .openString => true
  | .string | .number | .word | .mark _ | .comment | .newline | .blank => false

namespace Text

/-- `source.TokenAt s e t`: the token has been read from the symbols between two offsets. Its line
is that of its end, and its column that of its start. -/
structure TokenAt (source : Text) (s e : Nat) (t : Token) : Prop where
  lexeme : source.extract s e = t.lexeme
  line : t.line = 1 + lineFeeds (source.take e)
  column : source.lineStart s + t.column = s

/-- `source.DiagnosticAt s form d`: what is said about a slice of a form that starts at an offset. A
symbol that starts nothing is reported in its own line, and an open string in the last. -/
def DiagnosticAt (source : Text) (s : Nat) : Piece.Form → Diagnostic → Prop
  | .unknown, d => d = .inLine (1 + lineFeeds (source.take s)) .unexpectedCharacter
  | .openString, d => d = .inLine source.lex.last.line .unterminatedString
  | _, _ => False

variable {source : Text} {s : Nat} {piece : Piece}

theorem last_line (source : Text) : source.lex.last.line = 1 + source.lineFeeds := by
  rw [last_lex]
  exact Position.line_advance _ _

theorem tokenAt_of_mem_placed (h : (s, piece) ∈ source.placed) {t : Token}
    (made : piece.token? (source.positionAt s) = some t) :
    source.TokenAt s (s + piece.text.length) t := by
  obtain ⟨meaning, -, rfl⟩ := Option.map_eq_some_iff.mp made
  obtain ⟨before, after, split, offset⟩ := slice_of_mem_placed h
  constructor
  · rw [split, offset, List.append_assoc, List.extract_eq_take_drop, List.drop_left,
      Nat.add_sub_cancel_left, List.take_left]
  · rw [advance_positionAt h, line_positionAt]
  · exact column_positionAt (by simp [split, offset])

/-- Nothing follows an open string. -/
theorem end_of_openString (h : (s, piece) ∈ source.placed) (isOpen : piece.form = .openString) :
    s + piece.text.length = source.length := by
  obtain ⟨before, after, pieces, rfl⟩ := Piece.split_of_mem_placed h
  obtain ⟨remaining, split, cut⟩ := pieces_split pieces
  obtain ⟨first, rest, rfl, rfl, -⟩ := exists_cut_of_pieces cut
  have longest := Pattern.longest_cut first rest
  rw [isOpen] at longest
  have whole := Piece.cut_append first rest
  rw [longest.eq_nil_of_openString, List.append_nil] at whole
  rw [whole, split, List.length_append, Nat.zero_add]

theorem diagnosticAt_of_mem_placed (h : (s, piece) ∈ source.placed) {d : Diagnostic}
    (made : piece.diagnostic? (source.positionAt s) = some d) :
    source.DiagnosticAt s piece.form d := by
  obtain ⟨complaint, found, rfl⟩ := Option.map_eq_some_iff.mp made
  have mem : piece ∈ source.pieces := by
    obtain ⟨before, after, split, -⟩ := Piece.split_of_mem_placed h
    simp [split]
  cases form : piece.form with
  | unknown =>
    rw [Piece.complaint?, form] at found
    obtain rfl := Option.some.inj found
    rw [Position.advance_of_not_mem (lineFeed_not_mem_of_isFlat mem (by rw [form]; rfl)),
      line_positionAt]
    rfl
  | openString =>
    rw [Piece.complaint?, form] at found
    obtain rfl := Option.some.inj found
    rw [advance_positionAt h, end_of_openString h form, line_positionAt, List.take_length]
    exact congrArg (Diagnostic.inLine · _) source.last_line.symm
  | string | number | word | mark _ | comment | newline | blank =>
    rw [Piece.complaint?, form] at found
    cases found

/-- What is made of the pieces of some forms stands in the order of those pieces. -/
theorem forall₂_placed {β : Type} {f : Position → Piece → Option β} {keep : Piece.Form → Bool}
    {R : Nat × Piece → β → Prop} (source : Text)
    (kept : ∀ p piece, (f p piece).isSome = keep piece.form)
    (each : ∀ entry ∈ source.placed, ∀ b, f (source.positionAt entry.1) entry.2 = some b →
      R entry b) :
    List.Forall₂ R (source.placed.filter fun entry => keep entry.2.form)
      ((Piece.located .start source.pieces).filterMap fun (p, piece) => f p piece) := by
  rw [located_pieces, List.filterMap_map]
  generalize source.placed = entries at each
  induction entries with
  | nil => exact .nil
  | cons entry rest ih =>
    rw [List.forall_mem_cons] at each
    have same := kept (source.positionAt entry.1) entry.2
    cases made : f (source.positionAt entry.1) entry.2 with
    | none =>
      rw [made] at same
      simpa [made, ← same] using ih each.2
    | some b =>
      rw [made] at same
      simpa [made, ← same] using ⟨each.1 b made, ih each.2⟩

/-- **The tokens of a source are those of its pieces, each at the offsets of its piece.** -/
theorem forall₂_tokenAt (source : Text) :
    List.Forall₂ (fun entry t => source.TokenAt entry.1 (entry.1 + entry.2.text.length) t)
      (source.placed.filter fun entry => entry.2.form.isToken) source.lex.tokens := by
  rw [tokens_lex]
  refine source.forall₂_placed ?_ fun entry mem t => tokenAt_of_mem_placed mem
  rintro p ⟨form, text⟩
  cases form <;> rfl

/-- **The diagnostics of a source are those of its faulty pieces, each in its line.** -/
theorem forall₂_diagnosticAt (source : Text) :
    List.Forall₂ (fun entry d => source.DiagnosticAt entry.1 entry.2.form d)
      (source.placed.filter fun entry => entry.2.form.isFault) source.lex.diagnostics := by
  rw [diagnostics_lex]
  refine source.forall₂_placed ?_ fun entry mem d => diagnosticAt_of_mem_placed mem
  rintro p ⟨form, text⟩
  cases form <;> rfl

end Text

end Scriptlet
