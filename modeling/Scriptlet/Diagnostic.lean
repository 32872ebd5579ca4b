/-
Scriptlet.Diagnostic — what is said about a source that is not a program.

A complaint is the cause, a place says where in the line it was found, and a
diagnostic puts both on a line. Everything that is reported is built here, so
that the command line and the editor show the same words.

  §1 Complaints.
  §2 Places.
  §3 Diagnostics and their text.
  §4 Receiving diagnostics.
-/
import Scriptlet.Token.Basic

namespace Scriptlet

/-! ## §1 Complaints -/

/-- The causes for which a source is refused. -/
inductive Complaint where
  /-- A symbol that starts no token. -/
  | unexpectedCharacter
  /-- A string whose closing quote is missing. -/
  | unterminatedString
  /-- A token where an expression has to start. -/
  | expectedExpression
  /-- A parenthesis that is not closed behind its expression. -/
  | unclosedGroup
  /-- A print statement that does not end behind its value. -/
  | unfinishedPrint
  /-- A declaration without a name. -/
  | missingName
  /-- A declaration that does not end. -/
  | unfinishedVar
  /-- An expression statement that does not end. -/
  | unfinishedExpression
  /-- An assignment to something other than a variable. -/
  | invalidTarget
  /-- An expression nested more deeply than the budget allows. -/
  | nestingTooDeep
  /-- A complaint in the caller's own words. -/
  | worded (message : Text)
deriving DecidableEq, Repr, Inhabited

/-- The words of a complaint. -/
def Complaint.message : Complaint → Text
  | .unexpectedCharacter => "Unexpected character."
  | .unterminatedString => "Unterminated string."
  | .expectedExpression => "Expected expression."
  | .unclosedGroup => "Expect ')' after expression."
  | .unfinishedPrint => "Expect ';' after value."
  | .missingName => "Expect variable name."
  | .unfinishedVar => "Expect ';' after variable declaration."
  | .unfinishedExpression => "Expect ';' after expression."
  | .invalidTarget => "Invalid assignment target."
  | .nestingTooDeep => "Expression nesting too deep."
  | .worded message => message

/-! ## §2 Places -/

/-- Where in its line something was found. -/
inductive Place where
  /-- Somewhere in the line. -/
  | somewhere
  /-- At the end of the source. -/
  | atEnd
  /-- At a token with the given lexeme. -/
  | atLexeme (lexeme : Text)
deriving DecidableEq, Repr, Inhabited

namespace Place

/-- The place of a token. -/
def ofToken (t : Token) : Place :=
  if t.kind = .finish then .atEnd else .atLexeme t.lexeme

/-- The words for a place, to stand behind `Error`. -/
def text : Place → Text
  | .somewhere => []
  | .atEnd => " at end"
  | .atLexeme lexeme => Text.ofString " at '" ++ lexeme ++ Text.ofString "'"

end Place

/-! ## §3 Diagnostics and their text -/

/-- A complaint about a line of the source. -/
structure Diagnostic where
  /-- The line, counted from one. -/
  line : Int
  /-- The place in the line. -/
  place : Place
  /-- The cause. -/
  complaint : Complaint
deriving DecidableEq, Repr, Inhabited

namespace Diagnostic

/-- A complaint about a whole line. -/
def inLine (line : Int) (c : Complaint) : Diagnostic := ⟨line, .somewhere, c⟩

/-- A complaint about a token. -/
def atToken (t : Token) (c : Complaint) : Diagnostic := ⟨t.line, .ofToken t, c⟩

/-- The frame of every diagnostic: line, place and message. -/
def frame (line : Int) (place message : Text) : Text :=
  Text.ofString "[line " ++ Text.ofInt line ++ Text.ofString "] Error" ++ place ++
    Text.ofString ": " ++ message

/-- The text of a diagnostic. -/
def text (d : Diagnostic) : Text := frame d.line d.place.text d.complaint.message

end Diagnostic

/-! ## §4 Receiving diagnostics -/

/-- Who diagnostics are handed to. -/
inductive Reporter where
  /-- Nobody yet: nothing can be reported. -/
  | unset
  /-- An editor, which collects them. -/
  | collecting (received : List Diagnostic)
  /-- A session, which writes them down. -/
  | writing (written : Text)
deriving DecidableEq, Repr, Inhabited

namespace Reporter

/-- Hands over a diagnostic. -/
def receive? (r : Reporter) (d : Diagnostic) : Option Reporter :=
  match r with
  | .unset => none
  | .collecting received => some (.collecting (received ++ [d]))
  | .writing written => some (.writing (written ++ Text.line d.text))

/-- Has anything been reported? -/
def hadError : Reporter → Bool
  | .unset => false
  | .collecting received => !received.isEmpty
  | .writing written => !written.isEmpty

end Reporter

end Scriptlet
