/-
Scriptlet.Proofs.Editor.Pointing — pointing at a declaration finds it.

A server lists declarations by lines that end with a line feed and by columns
counted in symbols; a position that it is asked about has lines that end at any
line break and columns counted in UTF-16 units. The two agree where the text up to
the position has no other line breaks and its last line no symbol of two units
(`wordAt_of_isolated`). Pointing at a listed declaration then leads to the first
of its name (`definition_of_outline`).

  §1 Lines.
  §2 Columns.
  §3 Words.
  §4 The answers of a server.
-/
import Scriptlet.Proofs.Editor.Declarations
import Scriptlet.Proofs.Token.Word

namespace Scriptlet.Editor

/-! ## §1 Lines -/

/-- Is every line break of a text a line feed, with or without a carriage return before it? -/
def breaksAtFeeds : Text → Bool
  | [] => true
  | .char '\r' :: .char '\n' :: rest => breaksAtFeeds rest
  | s :: rest => (s == Symbol.lineFeed || !isLineBreak s) && breaksAtFeeds rest

/-- A symbol at which no line ends belongs to the first line. -/
theorem documentLines_cons_of_not {s : Symbol} (h : isLineBreak s = false) {t l : Text}
    {ls : List Text} (lines : documentLines t = l :: ls) :
    documentLines (s :: t) = (s :: l) :: ls := by
  rw [documentLines, h, lines]
  · rfl
  · rintro rest rfl
    cases h

theorem documentLines_cons_lineFeed (t : Text) :
    documentLines (Symbol.lineFeed :: t) = [Symbol.lineFeed] :: documentLines t := by
  rw [Symbol.lineFeed, documentLines]
  · rfl
  · intro rest h
    cases h

theorem lastLine_returnFeed (rest : Text) :
    Text.lastLine (.char '\r' :: .char '\n' :: rest) = rest.lastLine := by
  have feed : Symbol.lineFeed ∈ Symbol.lineFeed :: rest := List.mem_cons_self
  exact (Text.lastLine_cons_of_mem (List.mem_cons_of_mem _ feed)).trans
    (Text.lastLine_cons_of_mem feed)

/-- A text whose line breaks are line feeds goes on, in its last line, with the first line of what
follows. -/
theorem getElem?_documentLines {before t l : Text} (plain : breaksAtFeeds before = true)
    (first : (documentLines t).head? = some l) :
    (documentLines (before ++ t))[before.lineFeeds]? = some (before.lastLine ++ l) := by
  fun_induction breaksAtFeeds before with
  | case1 => simpa [Text.lineFeeds, Text.lastLine, List.head?_eq_getElem?] using first
  | case2 rest ih =>
    have feeds : Text.lineFeeds (.char '\r' :: .char '\n' :: rest) = Text.lineFeeds rest + 1 :=
      (Text.lineFeeds_cons_of_ne (by decide) _).trans (Text.lineFeeds_cons_lineFeed rest)
    rw [feeds, lastLine_returnFeed, List.cons_append, List.cons_append, documentLines,
      List.getElem?_cons_succ, ih plain]
  | case3 s rest notPair ih =>
    rw [Bool.and_eq_true, Bool.or_eq_true, beq_iff_eq, Bool.not_eq_true'] at plain
    have ih := ih plain.2
    rw [List.cons_append]
    rcases plain.1 with rfl | noBreak
    · rw [documentLines_cons_lineFeed, Text.lineFeeds_cons_lineFeed,
        Text.lastLine_cons_of_mem List.mem_cons_self, List.getElem?_cons_succ, ih]
    · have noFeed : s ≠ Symbol.lineFeed := by
        rintro rfl
        cases noBreak
      cases lines : documentLines (rest ++ t) with
      | nil => simp [lines] at ih
      | cons l' ls =>
        rw [lines] at ih
        rw [documentLines_cons_of_not noBreak lines, Text.lineFeeds_cons_of_ne noFeed]
        by_cases later : Symbol.lineFeed ∈ rest
        · -- the symbol is in the first line, and what is asked for is further down
          obtain ⟨n, feeds⟩ : ∃ n, Text.lineFeeds rest = n + 1 :=
            Nat.exists_eq_succ_of_ne_zero (mt List.count_eq_zero.mp (not_not_intro later))
          rw [feeds] at ih ⊢
          rwa [Text.lastLine_cons_of_mem (List.mem_cons_of_mem _ later)]
        · have feeds : Text.lineFeeds rest = 0 := List.count_eq_zero.mpr later
          rw [feeds, Text.lastLine_of_not_mem later] at ih
          have ih : l' = rest ++ l := Option.some.inj ih
          rw [feeds, Text.lastLine_of_not_mem (by simp [noFeed.symm, later]), ih]
          rfl

/-- No line ends inside the last line. -/
theorem not_isLineBreak_of_mem_lastLine {t : Text} (plain : breaksAtFeeds t = true) :
    ∀ s ∈ t.lastLine, isLineBreak s = false := by
  fun_induction breaksAtFeeds t with
  | case1 => simp [Text.lastLine]
  | case2 rest ih =>
    rw [lastLine_returnFeed]
    exact ih plain
  | case3 s rest notPair ih =>
    rw [Bool.and_eq_true, Bool.or_eq_true, beq_iff_eq, Bool.not_eq_true'] at plain
    by_cases feed : Symbol.lineFeed ∈ s :: rest
    · rw [Text.lastLine_cons_of_mem feed]
      exact ih plain.2
    · rw [Text.lastLine_of_not_mem feed]
      rw [List.mem_cons, not_or] at feed
      have ih := ih plain.2
      rw [Text.lastLine_of_not_mem feed.2] at ih
      have noBreak := plain.1.resolve_left (Ne.symm feed.1)
      exact List.forall_mem_cons.mpr ⟨noBreak, ih⟩

/-- The first line of a text with its end; empty if there is none. -/
def firstLine (t : Text) : Text := (documentLines t).head?.getD []

theorem firstLine_prefix (t : Text) : firstLine t <+: t := by
  unfold firstLine
  fun_induction documentLines t with
  | case1 => exact List.prefix_rfl
  | case2 rest ih => exact ⟨rest, rfl⟩
  | case3 s rest _ _ => exact ⟨rest, rfl⟩
  | case4 s rest _ _ none ih => exact ⟨rest, rfl⟩
  | case5 s rest _ _ l ls lines ih =>
    rw [lines] at ih
    exact List.cons_prefix_cons.mpr ⟨rfl, ih⟩

theorem head?_documentLines_cons {s : Symbol} (h : isLineBreak s = false) (t : Text) :
    (documentLines (s :: t)).head? = some (s :: firstLine t) := by
  rw [documentLines, h, firstLine]
  · cases documentLines t <;> rfl
  · rintro rest rfl
    cases h

/-- A text in which no line ends is a part of the line that it begins. -/
theorem firstLine_append {u : Text} (noBreak : ∀ s ∈ u, isLineBreak s = false) (t : Text) :
    firstLine (u ++ t) = u ++ firstLine t := by
  induction u with
  | nil => rfl
  | cons s u ih =>
    rw [List.forall_mem_cons] at noBreak
    rw [List.cons_append, firstLine, head?_documentLines_cons noBreak.1, ih noBreak.2]
    rfl

/-! ## §2 Columns -/

theorem unifyEnd_append {u : Text} (h : Symbol.char '\r' ∉ u) (v : Text) :
    unifyEnd (u ++ v) = u ++ unifyEnd v := by
  induction u with
  | nil => rfl
  | cons s u ih =>
    rw [List.mem_cons, not_or] at h
    rw [List.cons_append, unifyEnd, ih h.2]
    · rfl
    · rintro rest rfl
      exact absurd rfl h.1

theorem length_le_lineUnits (t : Text) : t.length ≤ lineUnits t := by
  induction t with
  | nil => exact Nat.le_refl 0
  | cons s t ih =>
    have one : 1 ≤ units s := by
      unfold units
      split
      · split <;> decide
      · decide
    rw [List.length_cons, lineUnits]
    omega

/-- Symbols of one unit are as many as their units. -/
theorem symbolsToReach_append {u : Text} (single : ∀ s ∈ u, units s = 1) (v : Text) :
    symbolsToReach (u ++ v) u.length = u.length := by
  induction u with
  | nil => cases v <;> rfl
  | cons s u ih =>
    rw [List.forall_mem_cons] at single
    rw [List.cons_append, List.length_cons, symbolsToReach, single.1, Nat.add_sub_cancel,
      ih single.2]

theorem symbolColumn_append {u : Text} (noReturn : Symbol.char '\r' ∉ u)
    (single : ∀ s ∈ u, units s = 1) (v : Text) : symbolColumn (u ++ v) u.length = u.length := by
  have fits : ¬ u.length > lineUnits (u ++ unifyEnd v) := by
    have := length_le_lineUnits (u ++ unifyEnd v)
    rw [List.length_append] at this
    omega
  simp only [symbolColumn, unifyEnd_append noReturn, if_neg fits]
  exact symbolsToReach_append single _

/-! ## §3 Words -/

theorem isLineBreak_of_isWordPart {s : Symbol} (h : s.isWordPart = true) :
    isLineBreak s = false := by
  refine Bool.eq_false_iff.mpr fun isBreak => ?_
  cases s with
  | stray b => cases isBreak
  | char c =>
    simp only [isLineBreak, Symbol.holds, Bool.or_eq_true, beq_iff_eq, or_assoc] at isBreak
    rcases isBreak with rfl | rfl | rfl | rfl | rfl | rfl | rfl | rfl | rfl | rfl <;>
      exact absurd h (by decide)

/-- No run of word symbols ends where some other symbol does. -/
theorem runAtEnd_eq_nil {t : Text} (noFeed : Symbol.lineFeed ∉ t)
    (last : ∀ s ∈ t.getLast?, s.isWordPart = false) : runAtEnd t = [] := by
  have body : t.getLast? ≠ some Symbol.lineFeed := fun h => noFeed (List.mem_of_getLast? h)
  rw [runAtEnd, if_neg body, List.reverse_eq_nil_iff]
  rw [← List.head?_reverse] at last
  cases reversed : t.reverse with
  | nil => rfl
  | cons s rest =>
    rw [reversed] at last
    rw [List.takeWhile_cons_of_neg (by simp [last s rfl])]

section Words

variable {before word after : Text}

/-- The line that an isolated word is in, as an editor sees it. -/
theorem line_of_isolated (isolated : Isolated before word after)
    (plain : breaksAtFeeds before = true) :
    (documentLines (before ++ word ++ after))[before.lineFeeds]? =
      some (before.lastLine ++ (word ++ firstLine after)) := by
  have noBreak : ∀ s ∈ word, isLineBreak s = false :=
    fun s mem => isLineBreak_of_isWordPart (isolated.inner s mem)
  rw [List.append_assoc, ← firstLine_append noBreak]
  refine getElem?_documentLines plain ?_
  obtain ⟨s, rest, rfl⟩ := List.exists_cons_of_ne_nil isolated.nonempty
  rw [List.cons_append, firstLine, head?_documentLines_cons (noBreak s List.mem_cons_self)]
  rfl

/-- The word at the place where an isolated word begins is that word. -/
theorem wordAt_of_isolated (isolated : Isolated before word after)
    (plain : breaksAtFeeds before = true) (single : ∀ s ∈ before.lastLine, units s = 1) :
    wordAt (before ++ word ++ after) before.lineFeeds before.lastLine.length = word := by
  have noBreak := not_isLineBreak_of_mem_lastLine plain
  have noReturn : Symbol.char '\r' ∉ before.lastLine :=
    fun mem => absurd (noBreak _ mem) (by decide)
  have noFeed : Symbol.lineFeed ∉ before.lastLine := fun mem => absurd (noBreak _ mem) (by decide)
  have left : runAtEnd before.lastLine = [] := by
    refine runAtEnd_eq_nil noFeed fun s last => isolated.left s ?_
    obtain ⟨rest, split⟩ := before.lastLine_suffix
    rw [← split, List.getLast?_append, Option.mem_def.mp last]
    rfl
  have right : (word ++ firstLine after).takeWhile Symbol.isWordPart = word := by
    refine congrArg Prod.fst (Piece.span_eq isolated.inner fun s first => isolated.right s ?_)
    obtain ⟨rest, split⟩ := firstLine_prefix after
    rw [← split, List.head?_append, Option.mem_def.mp first]
    rfl
  rw [wordAt, line_of_isolated isolated plain]
  simp only [symbolColumn_append noReturn single, List.take_left, List.drop_left, left, right,
    List.nil_append]

end Words

/-! ## §4 The answers of a server -/

/-- A listed declaration is one of its document, and its name stands at its place. -/
theorem place_of_mem_declarations {uri text : Text} {d : Declaration}
    (h : d ∈ (analyze uri text).declarations) :
    d.uri = uri ∧ ∃ before after, text = before ++ d.name ++ after ∧
      Position.start.advance before = ⟨d.line + 1, d.column⟩ ∧ Isolated before d.name after := by
  obtain ⟨entry, mem, made⟩ := List.mem_filterMap.mp h
  match entry, made with
  | some (.var name initial), made =>
    obtain ⟨before, after, split, position, isolated⟩ := Text.exists_declared mem
    obtain rfl := Option.some.inj made
    refine ⟨rfl, before, after, split, ?_, isolated⟩
    rw [position, Int.sub_add_cancel]

theorem exists_first {ds : List Declaration} {d : Declaration} (h : d ∈ ds) :
    ∃ first, ds.find? (·.name = d.name) = some first := by
  refine Option.isSome_iff_exists.mp ?_
  rw [List.find?_isSome]
  exact ⟨d, h, decide_eq_true rfl⟩

namespace Server

/-- A server that knows of no document but one, neither by its index nor by the scripts of its
workspace. -/
structure KnowsOnly (s : Server) (uri : Text) : Prop where
  indexed : ∀ other ∈ s.index.keys, other = uri
  scripts : ∀ other, s.workspace.HasScript other → other = uri

section Alone

variable {s : Server} {uri text : Text}

/-- What a server knows once a document has been opened. -/
theorem fst_handle_opened (opened : (s.handle (.opened uri text)).2.1 = .done) :
    (s.handle (.opened uri text)).1 =
      ({ s with opened := s.opened.insert uri text }.updateIndex uri text).1 := by
  rw [handle, fst_answerUpdate_some]
  cases path : Uri.path? uri with
  | some path' => rfl
  | none =>
    simp only [handle, answerUpdate, update, Option.elim_some, openDocument, documentPath, path]
      at opened
    cases opened

/-- Documents that are indexed are not scanned. -/
theorem foldl_scanText_of_contains {scripts : List (Text × Text)}
    (h : ∀ script ∈ scripts, s.index.contains script.1 = true) :
    scripts.foldl scanText s = s := by
  induction scripts with
  | nil => rfl
  | cons script rest ih =>
    rw [List.forall_mem_cons] at h
    have known : s.scanText script = s := by
      rw [scanText, scanOne, if_pos h.1]
    rw [List.foldl_cons, known, ih h.2]

theorem names_scan_of_contains
    (h : ∀ other, s.workspace.HasScript other → s.index.contains other = true) :
    s.scan.names = s.names := by
  rw [scan_eq]
  split
  · rfl
  · have known : ∀ script ∈ s.workspace.toScan, s.index.contains script.1 = true :=
      fun script mem => h _ ((mem_map_toScan _ _).mp (List.mem_map_of_mem mem))
    rw [foldl_scanText_of_contains known]

/-- If only one document is indexed, its declarations are the first of all. -/
theorem exists_all_insert {index : Index} (only : ∀ other ∈ index.keys, other = uri)
    (ds : List Declaration) : ∃ others, Index.all (index.insert uri ds) = ds ++ others := by
  obtain ⟨entries, distinct⟩ := index
  cases entries with
  | nil => exact ⟨[], by simp [OrderedMap.insert, OrderedMap.put, Index.all]⟩
  | cons entry rest =>
    have first : entry.1 = uri := only entry.1 List.mem_cons_self
    exact ⟨rest.flatMap (·.2), by simp [OrderedMap.insert, OrderedMap.put, first, Index.all]⟩

/-- In a server that knows of no other document, the word at a position of the one that was opened
leads to its first declaration there. -/
theorem snd_lookupAt_opened (only : s.KnowsOnly uri)
    (opened : (s.handle (.opened uri text)).2.1 = .done) {line column : Nat} {first : Declaration}
    (found : (analyze uri text).declarations.find? (·.name = wordAt text line column) = some first)
    (nonempty : wordAt text line column ≠ []) :
    ∃ s', (s.handle (.opened uri text)).1.lookupAt uri line column = .ok (s', some first) := by
  rw [fst_handle_opened opened]
  generalize now :
    (({ s with opened := s.opened.insert uri text } : Server).updateIndex uri text).1 = s₁
  have document : s₁.documentText uri = .ok text := by
    have given : s₁.opened.get? uri = some text := by
      rw [← now]
      exact OrderedMap.get?_insert_self s.opened uri text
    rw [documentText, given]
    rfl
  have scanned : s₁.scan.names = s₁.names := by
    refine names_scan_of_contains fun other script => ?_
    rw [← now] at script ⊢
    rw [only.scripts other script, index_updateIndex]
    simp [OrderedMap.contains]
  obtain ⟨others, all⟩ := exists_all_insert only.indexed (analyze uri text).declarations
  have looked : (s₁.lookup (wordAt text line column)).2 = some first := by
    have named : (s₁.lookup (wordAt text line column)).1.names = s₁.names := by
      rw [fst_lookup]
      split
      · exact scanned
      · rfl
    rw [snd_lookup nonempty, named, ← now, inStep_updateIndex, index_updateIndex,
      Index.first?_byName, all, List.find?_append, found]
    rfl
  refine ⟨(s₁.lookup (wordAt text line column)).1, ?_⟩
  rw [lookupAt, document, ← looked]
  rfl

/-- **Pointing at a listed declaration leads to the first of its name.** A document is opened in a
server that knows of no other. Every declaration that is then listed has its name at the start of
its range. If the text before that has no line breaks but line feeds, and its last line no symbol of
two units, asking for the definition there gives the range of the first declaration listed under the
name, and asking for a description gives that declaration in short form. -/
theorem definition_of_outline (s : Server) (uri text : Text) (only : s.KnowsOnly uri)
    (opened : (s.handle (.opened uri text)).2.1 = .done) :
    let now := (s.handle (.opened uri text)).1
    ∃ listed, (now.handle (.outline uri)).2.1 = .outline listed ∧
      ∀ d ∈ listed, ∃ line : Nat, d.range.startLine = line ∧
        (∃ before : Text, before ++ d.name <+: text ∧
          Position.start.advance before = ⟨line + 1, d.range.startColumn⟩) ∧
        ∀ before : Text, before <+: text →
          Position.start.advance before = ⟨line + 1, d.range.startColumn⟩ →
          breaksAtFeeds before = true → (∀ symbol ∈ before.lastLine, units symbol = 1) →
          ∃ first, listed.find? (·.name = d.name) = some first ∧
            (now.handle (.definition uri line d.range.startColumn)).2.1 =
              .location (some (uri, first.range)) ∧
            (now.handle (.hover uri line d.range.startColumn)).2.1 =
              .description (some first.detail) := by
  intro now
  have listed : now.index.declarations uri = (analyze uri text).declarations := by
    rw [show now = _ from fst_handle_opened opened, index_updateIndex, Index.declarations,
      OrderedMap.get?_insert_self]
    rfl
  refine ⟨_, congrArg Response.outline listed, fun d mem => ?_⟩
  obtain ⟨-, before, after, split, position, isolated⟩ := place_of_mem_declarations mem
  obtain ⟨line, column⟩ := Position.mk.inj ((Text.start_advance before).symm.trans position)
  have row : d.range.startLine = before.lineFeeds := by
    show d.line = _
    omega
  have position : Position.start.advance before =
      ⟨before.lineFeeds + 1, d.range.startColumn⟩ := by
    rw [position, line]
    rfl
  refine ⟨before.lineFeeds, row, ⟨before, ⟨after, split.symm⟩, position⟩, ?_⟩
  intro upTo part ends plain single
  obtain rfl : upTo = before := by
    refine Text.eq_of_advance_eq part ?_ (ends.trans position.symm)
    exact ⟨d.name ++ after, by rw [split, List.append_assoc]⟩
  have word : wordAt text upTo.lineFeeds d.range.startColumn = d.name := by
    rw [split, show d.range.startColumn = d.column from rfl, ← column]
    exact wordAt_of_isolated isolated plain single
  obtain ⟨first, found⟩ := exists_first mem
  obtain ⟨document, -⟩ := place_of_mem_declarations (List.mem_of_find?_eq_some found)
  obtain ⟨s', answer⟩ := snd_lookupAt_opened only opened (by rw [word]; exact found)
    (by rw [word]; exact isolated.nonempty)
  refine ⟨first, found, ?_, ?_⟩
  · rw [handle, answerAt, answer, ← document]
    rfl
  · rw [handle, answerAt, answer]
    rfl

end Alone

/-- The URI of the only script of a workspace. -/
def onlyUri : Text := "file:///ws/a.nice"

/-- A workspace with one script. -/
def oneScript : Workspace :=
  ⟨(FileTree.empty ["ws"]).insert "a.nice" (.file (Text.ofString "var z;").bytes), true⟩

/-- A text that declares a name again, behind both line ends and a line feed in a string. -/
def redeclaring : Text := "var a = \"\n\";\r\nprint \"é\"; var a = 2;"

/-- The server of that workspace once its script has been opened with that text. -/
def redeclared : Server := ((start oneScript).handle (.opened onlyUri redeclaring)).1

theorem knowsOnly_oneScript : (start oneScript).KnowsOnly onlyUri where
  indexed := by simp [start, OrderedMap.keys, OrderedMap.empty]
  scripts := by
    intro other script
    have found : oneScript.toScan.map (·.1) = [onlyUri] := by decide +kernel
    have mem := (mem_map_toScan oneScript other).mpr script
    rw [found] at mem
    exact List.mem_singleton.mp mem

/-- Pointing at the later declaration leads to the earlier one. -/
theorem definition_of_outline_redeclared :
    ((start oneScript).handle (.opened onlyUri redeclaring)).2.1 = .done ∧
    (redeclared.handle (.outline onlyUri)).2.1 = .outline
      [⟨"a", onlyUri, 0, 4, "var a = \"\n\""⟩, ⟨"a", onlyUri, 2, 15, "var a = 2"⟩] ∧
    (redeclared.handle (.definition onlyUri 2 15)).2.1 =
      .location (some (onlyUri, ⟨0, 4, 0, 5⟩)) ∧
    (redeclared.handle (.hover onlyUri 2 15)).2.1 = .description (some "var a = \"\n\"") := by
  have opened : ((start oneScript).handle (.opened onlyUri redeclaring)).2.1 = .done := by
    decide +kernel
  have outline : (redeclared.handle (.outline onlyUri)).2.1 = .outline
      [⟨"a", onlyUri, 0, 4, "var a = \"\n\""⟩, ⟨"a", onlyUri, 2, 15, "var a = 2"⟩] := by
    decide +kernel
  obtain ⟨listed, same, each⟩ :=
    definition_of_outline (start oneScript) onlyUri redeclaring knowsOnly_oneScript opened
  obtain rfl := Response.outline.inj (same.symm.trans outline)
  obtain ⟨line, row, -, answers⟩ := each ⟨"a", onlyUri, 2, 15, "var a = 2"⟩ (by simp)
  obtain rfl : line = 2 := Int.ofNat.inj row.symm
  obtain ⟨first, found, definition, description⟩ := answers "var a = \"\n\";\r\nprint \"é\"; var "
    ⟨"a = 2;", by decide +kernel⟩ (by decide +kernel) (by decide +kernel) (by decide +kernel)
  obtain rfl := Option.some.inj found
  exact ⟨opened, outline, definition, description⟩

/-- The server of that workspace once its script has been opened with a text that has a symbol of
two units before a name. -/
def misplaced : Server := ((start oneScript).handle (.opened onlyUri "\"😀\"; var x;")).1

/-- Behind a symbol of two units, another word stands where a name is listed, and pointing there
leads nowhere. -/
theorem definition_behind_wide_symbol :
    (misplaced.handle (.outline onlyUri)).2.1 = .outline [⟨"x", onlyUri, 0, 9, "var x"⟩] ∧
    (misplaced.documentText onlyUri).toOption.map (wordAt · 0 9) = some (Text.ofString "var") ∧
    (misplaced.handle (.definition onlyUri 0 9)).2.1 = .location none ∧
    (misplaced.handle (.hover onlyUri 0 9)).2.1 = .description none := by
  decide +kernel

end Server

end Scriptlet.Editor
