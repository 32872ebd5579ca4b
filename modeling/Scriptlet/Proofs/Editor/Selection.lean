/-
Scriptlet.Proofs.Editor.Selection — what the range of a declaration selects.

Split at its line feeds, a text has the line of a position in the row that counts
the line feeds before it (`drop_splitOn_lineFeed`). The range that an editor is
given for a declaration therefore selects the declared name and nothing else
(`selects_of_mem_declarations`), and every place that is told of a source is the
one that its offsets have (`positions_of_offsets`).

  §1 The lines of a text.
  §2 What a range selects.
  §3 Every place is exact.
-/
import Scriptlet.Proofs.Editor.Pointing
import Scriptlet.Proofs.Token.Offset

namespace Scriptlet

/-! ## §1 The lines of a text -/

namespace Text

variable {separator s : Symbol} {part t u : Text} {parts : List Text}

theorem exists_splitOn (separator : Symbol) (t : Text) :
    ∃ part parts, splitOn separator t = part :: parts := by
  refine List.exists_cons_of_ne_nil ?_
  cases t with
  | nil => simp [splitOn]
  | cons s t =>
    rw [splitOn]
    split
    · simp
    · split <;> simp

theorem splitOn_cons_self (separator : Symbol) (t : Text) :
    splitOn separator (separator :: t) = [] :: splitOn separator t := by
  rw [splitOn, if_pos rfl]

/-- A symbol that is no separator belongs to the first part. -/
theorem splitOn_cons_of_ne (h : s ≠ separator) (split : splitOn separator t = part :: parts) :
    splitOn separator (s :: t) = (s :: part) :: parts := by
  rw [splitOn, if_neg h, split]

/-- A text without separators is the beginning of the first part. -/
theorem splitOn_append (h : separator ∉ u) (split : splitOn separator t = part :: parts) :
    splitOn separator (u ++ t) = (u ++ part) :: parts := by
  induction u with
  | nil => exact split
  | cons s u ih =>
    rw [List.mem_cons, not_or] at h
    exact splitOn_cons_of_ne (Ne.symm h.1) (ih h.2)

theorem lineFeed_not_mem_lastLine (t : Text) : Symbol.lineFeed ∉ t.lastLine := by
  induction t with
  | nil => simp [lastLine]
  | cons s t ih =>
    rw [lastLine]
    split
    · exact ih
    · assumption

/-- The lines from that of a position on: what stands before it in its line, and what follows. -/
theorem drop_splitOn_lineFeed (before t : Text) :
    (splitOn Symbol.lineFeed (before ++ t)).drop before.lineFeeds =
      splitOn Symbol.lineFeed (before.lastLine ++ t) := by
  induction before with
  | nil => rfl
  | cons s before ih =>
    by_cases feed : Symbol.lineFeed ∈ s :: before
    · rw [lastLine_cons_of_mem feed, ← ih, List.cons_append]
      by_cases first : s = Symbol.lineFeed
      · rw [first, splitOn_cons_self, lineFeeds_cons_lineFeed, List.drop_succ_cons]
      · -- the first line ends further on, so that it is dropped with the symbol in it
        have later : lineFeeds before ≠ 0 :=
          mt List.count_eq_zero.mp (not_not_intro (List.mem_of_ne_of_mem (Ne.symm first) feed))
        obtain ⟨n, feeds⟩ := Nat.exists_eq_succ_of_ne_zero later
        obtain ⟨part, parts, split⟩ := exists_splitOn Symbol.lineFeed (before ++ t)
        rw [lineFeeds_cons_of_ne first, splitOn_cons_of_ne first split, split, feeds,
          List.drop_succ_cons, List.drop_succ_cons]
    · have none : lineFeeds (s :: before) = 0 := List.count_eq_zero.mpr feed
      rw [lastLine_of_not_mem feed, none, List.drop_zero]

/-- The line in which a word without line feeds stands. -/
theorem getElem?_splitOn_lineFeed (before : Text) {word : Text} (h : Symbol.lineFeed ∉ word)
    (after : Text) :
    ∃ rest, (splitOn Symbol.lineFeed (before ++ word ++ after))[before.lineFeeds]? =
      some (before.lastLine ++ word ++ rest) := by
  obtain ⟨rest, lines, split⟩ := exists_splitOn Symbol.lineFeed after
  have noFeed : Symbol.lineFeed ∉ before.lastLine ++ word := by
    rw [List.mem_append, not_or]
    exact ⟨before.lineFeed_not_mem_lastLine, h⟩
  refine ⟨rest, ?_⟩
  rw [← List.head?_drop, List.append_assoc, drop_splitOn_lineFeed, ← List.append_assoc,
    splitOn_append noFeed split, List.head?_cons]

end Text

/-! ## §2 What a range selects -/

namespace Editor

/-- `r.Selects lines word`: the range is inside one of the lines, and the word is what it spans. -/
def Range.Selects (r : Range) (lines : List Text) (word : Text) : Prop :=
  ∃ (row : Nat) (left right : Text), lines[row]? = some (left ++ word ++ right) ∧
    r = ⟨row, left.length, row, (left ++ word).length⟩

/-- **The range of a declaration selects its name.** -/
theorem selects_of_mem_declarations {uri text : Text} {d : Declaration}
    (h : d ∈ (analyze uri text).declarations) :
    d.range.Selects (text.splitOn Symbol.lineFeed) d.name := by
  obtain ⟨-, before, after, split, position, isolated⟩ := place_of_mem_declarations h
  have noFeed : Symbol.lineFeed ∉ d.name := List.count_eq_zero.mp isolated.lineFeeds
  obtain ⟨rest, line⟩ := before.getElem?_splitOn_lineFeed noFeed after
  rw [Text.start_advance, Position.mk.injEq] at position
  have row : d.line = before.lineFeeds := by omega
  refine ⟨before.lineFeeds, before.lastLine, rest, by rw [split, line], ?_⟩
  rw [Declaration.range, row, ← position.2, List.length_append]

end Editor

/-! ## §3 Every place is exact -/

open Editor in
/-- **Every place that is told of a source is exact.** The tokens are those of the pieces that
become tokens, in order, and each has the line and the column of its offsets. The mark of the end is
in the last line. A symbol that starts no token is reported in its own line and an open string in
the last. The range of each declaration selects its name in the text split at its line feeds. -/
theorem Text.positions_of_offsets (source : Text) :
    List.Forall₂ (fun entry t => source.TokenAt entry.1 (entry.1 + entry.2.text.length) t)
      (source.placed.filter fun entry => entry.2.form.isToken) source.lex.tokens ∧
    source.lex.last.line = 1 + source.lineFeeds ∧
    List.Forall₂ (fun entry d => source.DiagnosticAt entry.1 entry.2.form d)
      (source.placed.filter fun entry => entry.2.form.isFault) source.lex.diagnostics ∧
    ∀ uri, ∀ d ∈ (analyze uri source).declarations,
      d.range.Selects (source.splitOn Symbol.lineFeed) d.name :=
  ⟨source.forall₂_tokenAt, source.last_line, source.forall₂_diagnosticAt,
    fun _ _ => selects_of_mem_declarations⟩

/-- A source in which a string with a line feed, a symbol that starts nothing and a declaration
share a line, and the last string is open. -/
def Text.mixedSource : Text := "var a = \"x\ny\"; @ var b; // c\n\"o\n"

/-- The column of a name counts from the line feed inside a string before it. -/
theorem Text.positions_of_offsets_mixed :
    (⟨"b", [], 1, 10, "var b"⟩ : Editor.Declaration) ∈
      (Editor.analyze [] mixedSource).declarations ∧
    Editor.Range.Selects ⟨1, 10, 1, 11⟩ (mixedSource.splitOn Symbol.lineFeed) "b" := by
  have mem : (⟨"b", [], 1, 10, "var b"⟩ : Editor.Declaration) ∈
      (Editor.analyze [] mixedSource).declarations := by decide +kernel
  exact ⟨mem, (positions_of_offsets mixedSource).2.2.2 [] _ mem⟩

end Scriptlet
