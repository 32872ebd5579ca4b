/-
Scriptlet.Command.Line — the command line.

Without an argument the program reads lines at a prompt, with one it runs the
script of that name, and with more it says how it is used. The exit status is
zero, or sixty-nine when the script could not be read, something was wrong with
it, or it ended in a runtime error.

  §1 Outcomes.
  §2 Scripts.
  §3 The prompt.
  §4 Commands.
-/
import Scriptlet.Command.FileTree
import Scriptlet.Text.Newline
import Scriptlet.Session

namespace Scriptlet.Command

/-! ## §1 Outcomes -/

/-- How a command ended and what it wrote. -/
structure Outcome where
  /-- The exit status. -/
  exit : Nat
  /-- What went to the standard output. -/
  stdout : Text
  /-- What went to the standard error. -/
  stderr : Text
deriving DecidableEq, Repr, Inhabited

/-- Why a command could not even start its work or finish it. -/
inductive Crash where
  /-- The path of the script holds a NUL. -/
  | nulInPath
  /-- The standard input is not UTF-8. -/
  | undecodableInput
deriving DecidableEq, Repr, Inhabited

/-- The exit status of everything that failed. -/
def failure : Nat := 69

/-! ## §2 Scripts -/

/-- The text of a script. Bytes that cannot be decoded are kept. -/
def scriptText (content : Bytes) : Text := Text.unifyNewlines (Text.ofBytes content)

/-- What is said of a script that cannot be read, for the given reason. -/
def unreadable (path reason : Text) : Text :=
  Text.line (Text.ofString "Could not read '" ++ path ++ Text.ofString "': " ++ reason)

/-- The exit status of a session after a script. -/
def scriptExit (s : Session) : Nat := if s.hadError || s.hadRuntimeError then failure else 0

/-- Runs a script in a session. Reading its file gave the content, or the reason why there is
none. -/
def runScript (s : Session) (path : Text) (content : Except Text Bytes) : Session × Outcome :=
  match content with
  | .error reason => (s, ⟨failure, [], unreadable path reason⟩)
  | .ok bytes =>
    let (s', transcript) := s.run (scriptText bytes)
    (s', ⟨scriptExit s', transcript.stdout, transcript.stderr⟩)

/-- Runs the script at a path of a tree of files. -/
def runScriptAt (s : Session) (files : FileTree) (path : Text) : Except Crash (Session × Outcome) :=
  if FileTree.holdsNul path then .error .nulInPath
  else .ok (runScript s path ((files.read path).mapError FileTree.ReadError.message))

/-! ## §3 The prompt -/

/-- What stands before every line that is read. -/
def prompt : Text := "> "

/-- How the input of the prompt ends. -/
inductive InputEnd where
  /-- There is no more. -/
  | exhausted
  /-- The user interrupts. -/
  | interrupted
deriving DecidableEq, Repr, Inhabited

/-- What is written when the input ends. -/
def InputEnd.farewell : InputEnd → Text
  | .exhausted => "\n"
  | .interrupted => "\nInterrupted.\n"

/-- Runs one line at the prompt. An error in it is forgotten with the next. -/
def runLine (s : Session) (line : Text) : Session × Transcript :=
  let (s', transcript) := s.run line
  (s'.clearError, transcript)

/-- Runs lines at the prompt, one after another, and says farewell. -/
def runLines (s : Session) (finish : InputEnd) : List Text → Session × Outcome
  | [] => (s, ⟨0, prompt ++ finish.farewell, []⟩)
  | line :: rest =>
    let (s₁, transcript) := runLine s line
    let (s₂, others) := runLines s₁ finish rest
    (s₂, ⟨others.exit, prompt ++ transcript.stdout ++ others.stdout,
      transcript.stderr ++ others.stderr⟩)

/-- Runs the lines of an input at the prompt. -/
def runPrompt (s : Session) (finish : InputEnd) (input : Bytes) :
    Except Crash (Session × Outcome) :=
  match Text.ofBytes? input with
  | none => .error .undecodableInput
  | some t => .ok (runLines s finish (Text.lines (Text.unifyNewlines t)))

/-! ## §4 Commands -/

/-- Everything a command depends on. -/
structure Request where
  /-- The arguments. -/
  args : List Text
  /-- The files below the working directory. -/
  files : FileTree
  /-- The standard input. -/
  stdin : Bytes
  /-- How the standard input ends. -/
  finish : InputEnd
  /-- The setting that asks for trees; an empty one does not. -/
  debug : Text
deriving DecidableEq, Repr, Inhabited

/-- Is the setting that asks for trees given? -/
def asksForTrees (setting : Text) : Bool := !setting.isEmpty

/-- How the program is used. -/
def usage : Text := "Usage: 69 [script]\n"

/-- Runs a command. -/
def run (r : Request) : Except Crash Outcome :=
  let session := Session.start (asksForTrees r.debug)
  match r.args with
  | [] => (·.2) <$> runPrompt session r.finish r.stdin
  | [path] => (·.2) <$> runScriptAt session r.files path
  | _ => .ok ⟨failure, usage, []⟩

/-- A script that can be read is run in a new session. -/
theorem run_of_read {r : Request} {path : Text} {content : Bytes} (args : r.args = [path])
    (named : FileTree.holdsNul path = false) (read : r.files.read path = .ok content) :
    let ran := (Session.start (asksForTrees r.debug)).run (scriptText content)
    run r = .ok ⟨scriptExit ran.1, ran.2.stdout, ran.2.stderr⟩ := by
  simp only [run, args, runScriptAt, named, read]
  rfl

end Scriptlet.Command
