/-
Scriptlet.Proofs.Command.Transparency — the bytes of a string come out as they went in.

A script that prints a string is read from bytes, cut into tokens, parsed and run,
and what it shows is written as bytes again. Between its quotes a string may hold
any byte but a quote, well-formed UTF-8 or not. Only line ends are unified; all
other bytes are listed and printed as they are.

  §1 A program that prints a string.
  §2 Its run in a session.
  §3 Its run from a file.
-/
import Scriptlet.Proofs.Text.Reading
import Scriptlet.Proofs.Token.Layout
import Scriptlet.Command.Line

namespace Scriptlet

/-! ## §1 A program that prints a string -/

/-- The program that prints a string, by what is between its quotes. -/
def Text.printing (body : Text) : Text := ofString "print \"" ++ body ++ ofString "\";"

/-- A string with its quotes. -/
def Text.enclosed (body : Text) : Text := Symbol.quote :: (body ++ [Symbol.quote])

namespace Text

variable {body : Text}

theorem pieces_printing (unquoted : Symbol.quote ∉ body) :
    (printing body).pieces = [⟨.word, ofString "print"⟩, ⟨.blank, ofString " "⟩,
      ⟨.string, enclosed body⟩, ⟨.mark .semicolon, ofString ";"⟩] := by
  have source : printing body =
      ofString "print" ++ .char ' ' :: Symbol.quote :: (body ++ Symbol.quote :: ofString ";") := by
    simp [printing, ofString, Symbol.quote]
  have word : Piece.Form.word.Matches (ofString "print") :=
    ⟨.char 'p', ofString "rint", rfl, by decide, by decide⟩
  have blank : Piece.cut (.char ' ') (Symbol.quote :: (body ++ Symbol.quote :: ofString ";")) =
      (⟨.blank, ofString " "⟩, Symbol.quote :: (body ++ Symbol.quote :: ofString ";")) := rfl
  have mark : Piece.cut (.char ';') [] = (⟨.mark .semicolon, ofString ";"⟩, []) := rfl
  rw [source, pieces_of_matches rfl word (by simp [Stops, Symbol.isWhite, Symbol.isBlank,
    Symbol.holds]), pieces, blank, pieces, Piece.cut_of_string unquoted]
  show _ :: _ :: _ :: pieces [.char ';'] = _
  rw [pieces, mark, pieces]
  rfl

/-- The tokens of a program that prints a string. -/
def printingTokens (body : Text) : List Token :=
  let after := Position.advance ⟨1, 6⟩ (enclosed body)
  [⟨.printWord, ofString "print", none, 1, 0⟩,
   ⟨.string, enclosed body, some (.string body), after.line, 6⟩,
   ⟨.semicolon, ofString ";", none, after.line, after.column⟩]

theorem lex_printing (unquoted : Symbol.quote ∉ body) :
    (printing body).lex = ⟨printingTokens body,
      .ending (Position.start.advance (printing body)).line, []⟩ := by
  have inner : Token.Literal.string body = .string (Piece.unquoted (enclosed body)) := by
    simp [Piece.unquoted, enclosed]
  rw [lex_eq_located, pieces_printing unquoted, printingTokens, inner]
  rfl

theorem parse_printing (unquoted : Symbol.quote ∉ body) :
    (printing body).parse = ⟨printingTokens body ++
        [.ending (Position.start.advance (printing body)).line],
      [some (.print (.literal (.string body)))], []⟩ := by
  rw [parse, lex_printing unquoted]
  rfl

theorem listing_printing (body : Text) (line : Int) :
    (printingTokens body ++ [Token.ending line]).flatMap (fun t => Text.line t.listing) =
      ofString "PRINT print null\nSTRING \"" ++ body ++ ofString "\" " ++ body ++
      ofString "\nSEMICOLON ; null\nEOF  null\n" := by
  have labels : Token.Kind.label .printWord = "PRINT" ∧ Token.Kind.label .string = "STRING" ∧
      Token.Kind.label .semicolon = "SEMICOLON" ∧ Token.Kind.label .finish = "EOF" := by decide
  simp [printingTokens, enclosed, Text.line, Token.listing, Token.ending, labels,
    Token.Literal.listing]
  rfl

end Text

/-! ## §2 Its run in a session -/

/-- A session lists the string with and without its quotes, shows it in the tree if asked to, and
prints it. -/
theorem Session.run_printing {s : Session} (clear : s.hadError = false) {body : Text}
    (unquoted : Symbol.quote ∉ body) :
    (s.run (Text.printing body)).1 = s ∧ (s.run (Text.printing body)).2.stderr = [] ∧
    (s.run (Text.printing body)).2.stdout =
      Text.ofString "PRINT print null\nSTRING \"" ++ body ++ Text.ofString "\" " ++ body ++
      Text.ofString "\nSEMICOLON ; null\nEOF  null\n" ++
      (if s.debug then Text.ofString "\nAST:\n\n(print \"" ++ body ++ Text.ofString "\")\n \n"
        else []) ++
      Text.line body := by
  obtain ⟨same, stderr, -, stdout⟩ := run_print clear (Text.parse_printing unquoted)
  refine ⟨same, stderr, ?_⟩
  rw [stdout, Text.listing_printing]
  simp [Value.quoted, Value.text, Text.ofString, Symbol.quote]

/-! ## §3 Its run from a file -/

namespace Command

open Text (bytes ofBytes ofString unifyNewlines unifyNewlineBytes)

/-- The bytes of a script that prints a string, by the bytes between its quotes. -/
def printingBytes (content : Bytes) : Bytes :=
  bytes (ofString "print \"") ++ content ++ bytes (ofString "\";")

theorem ofBytes_printingBytes (content : Bytes) :
    ofBytes (printingBytes content) = Text.printing (ofBytes content) := by
  have spelled : bytes (ofString "\";") = [0x22, 0x3B] := by decide
  have closing : ofBytes [0x22, 0x3B] = ofString "\";" := by
    have again := Text.ofBytes_bytes_append (Text.isDecoded_ofString "\";") []
    simpa [spelled, ofBytes] using again
  rw [printingBytes, List.append_assoc, Text.ofBytes_bytes_append (Text.isDecoded_ofString _),
    spelled, Text.ofBytes_append content (by decide), closing, Text.printing, List.append_assoc]

theorem scriptText_printingBytes (content : Bytes) :
    scriptText (printingBytes content) = Text.printing (unifyNewlines (ofBytes content)) := by
  have opening : ∀ t, unifyNewlines (ofString "print \"" ++ t) =
      ofString "print \"" ++ unifyNewlines t := fun t => rfl
  rw [scriptText, ofBytes_printingBytes, Text.printing, List.append_assoc, opening,
    Text.unifyNewlines_append _ (by decide), Text.printing, List.append_assoc]
  rfl

/-- A byte that is not a quote does not become one. -/
theorem quote_not_mem_unifyNewlines {content : Bytes} (unquoted : 0x22 ∉ content) :
    Symbol.quote ∉ unifyNewlines (ofBytes content) := by
  intro mem
  rcases Text.mem_of_mem_unifyNewlines mem with feed | mem
  · exact absurd feed (by decide)
  · apply unquoted
    rw [← Text.bytes_ofBytes content]
    exact List.mem_flatMap.mpr ⟨_, mem, by decide⟩

/-- **The bytes of a string are kept.** A script that prints a string, whatever bytes other than a
quote stand between its quotes, runs without an error. The string is listed with its quotes and
again without them, it is shown in the tree if trees are asked for, and it is printed: each time
with the very bytes of the script, but for line ends, each of which is one line feed. -/
theorem run_keeps_string_bytes (r : Request) (path : Text) (content : Bytes)
    (args : r.args = [path]) (named : FileTree.holdsNul path = false)
    (read : r.files.read path = .ok (printingBytes content)) (unquoted : 0x22 ∉ content) :
    ∃ outcome, run r = .ok outcome ∧ outcome.exit = 0 ∧ outcome.stderr = [] ∧
      outcome.stdout.bytes =
        bytes (ofString "PRINT print null\nSTRING \"") ++ unifyNewlineBytes content ++
        bytes (ofString "\" ") ++ unifyNewlineBytes content ++
        bytes (ofString "\nSEMICOLON ; null\nEOF  null\n") ++
        (if asksForTrees r.debug then
          bytes (ofString "\nAST:\n\n(print \"") ++ unifyNewlineBytes content ++
          bytes (ofString "\")\n \n")
        else []) ++
        unifyNewlineBytes content ++ [0x0A] := by
  have written : bytes (unifyNewlines (ofBytes content)) = unifyNewlineBytes content := by
    rw [(Text.spelled_ofBytes content).bytes_unifyNewlines, Text.bytes_ofBytes]
  obtain ⟨session, stderr, stdout⟩ := Session.run_printing (s := .start (asksForTrees r.debug)) rfl
    (quote_not_mem_unifyNewlines unquoted)
  rw [← scriptText_printingBytes] at session stderr stdout
  refine ⟨_, run_of_read args named read, ?_, stderr, ?_⟩
  · rw [session]
    rfl
  · have feed : Symbol.lineFeed.bytes = [0x0A] := by decide
    rw [stdout]
    cases asksForTrees r.debug <;> simp [written, Session.start, Text.line, feed]

/-- Bytes between quotes: one that starts no character, all three line ends, a character of two
bytes, a NUL and an encoded surrogate. -/
def oddBytes : Bytes :=
  [0xFF, 0x0D, 0x0A, 0xC3, 0xA9, 0x0D, 0x0A, 0x0A, 0x0D, 0x00, 0xED, 0xA0, 0x80]

/-- The command that runs the script with them. -/
def oddRequest : Request :=
  ⟨["odd.nice"], (FileTree.empty ["home"]).insert "odd.nice" (.file (printingBytes oddBytes)), [],
    .exhausted, []⟩

/-- The line ends are unified and nothing else changes. -/
theorem run_keeps_string_bytes_odd :
    oddRequest.files.read "odd.nice" = .ok (printingBytes oddBytes) ∧ 0x22 ∉ oddBytes ∧
    unifyNewlineBytes oddBytes =
      [0xFF, 0x0A, 0xC3, 0xA9, 0x0A, 0x0A, 0x0A, 0x00, 0xED, 0xA0, 0x80] ∧
    ∃ outcome, run oddRequest = .ok outcome ∧ outcome.exit = 0 ∧ outcome.stderr = [] ∧
      outcome.stdout.bytes =
        bytes (ofString "PRINT print null\nSTRING \"") ++ unifyNewlineBytes oddBytes ++
        bytes (ofString "\" ") ++ unifyNewlineBytes oddBytes ++
        bytes (ofString "\nSEMICOLON ; null\nEOF  null\n") ++ unifyNewlineBytes oddBytes ++
        [0x0A] := by
  have read : oddRequest.files.read "odd.nice" = .ok (printingBytes oddBytes) := by decide +kernel
  have unquoted : 0x22 ∉ oddBytes := by decide
  obtain ⟨outcome, ran, exit, stderr, stdout⟩ :=
    run_keeps_string_bytes oddRequest "odd.nice" oddBytes rfl (by decide) read unquoted
  refine ⟨read, unquoted, by decide, outcome, ran, exit, stderr, ?_⟩
  simpa [oddRequest, asksForTrees] using stdout

end Command

end Scriptlet
