/-
Scriptlet.Main — the program.

Reads arguments, files and lines and writes what the commands give. What is read
and written, and the exit status, are decided by `Scriptlet.Command.Line`.
-/
import Scriptlet.Command.Line

namespace Scriptlet.Main

/-- Writes a text to a stream. -/
def put (stream : IO.FS.Stream) (t : Text) : IO Unit := do
  stream.write ⟨t.bytes.toArray⟩
  stream.flush

/-- The words for the reason why a file could not be read. That it is a directory shows only when it
is read, that a directory on the way is none shows when it is opened. -/
def reason : IO.Error → Text
  | .noFileOrDirectory _ _ _ => FileTree.ReadError.missing.message
  | .inappropriateType none _ _ => FileTree.ReadError.isDirectory.message
  | .inappropriateType (some _) _ _ => FileTree.ReadError.notDirectory.message
  | .invalidArgument _ _ _ => FileTree.ReadError.nameTooLong.message
  | .permissionDenied _ _ _ => FileTree.ReadError.accessDenied.message
  | e => Text.ofString (toString e)

/-- The content of the file at a path, or the reason why there is none. -/
def load (path : String) : IO (Except Text Bytes) := do
  try
    let content ← IO.FS.readBinFile path
    return .ok content.toList
  catch e =>
    return .error (reason e)

/-- Writes an outcome and gives its exit status. -/
def finish (outcome : Command.Outcome) : IO UInt32 := do
  put (← IO.getStdout) outcome.stdout
  put (← IO.getStderr) outcome.stderr
  return outcome.exit.toUInt32

/-- Runs lines at the prompt until there are no more. The prompt has been written. -/
partial def promptLoop (s : Session) : IO UInt32 := do
  let out ← IO.getStdout
  let input ← (← IO.getStdin).getLine
  if input.isEmpty then
    put out Command.InputEnd.exhausted.farewell
    return 0
  let mut session := s
  for line in Text.lines (Text.unifyNewlines (Text.ofString input)) do
    let (next, transcript) := Command.runLine session line
    put (← IO.getStderr) transcript.stderr
    put out (transcript.stdout ++ Command.prompt)
    session := next
  promptLoop session

end Scriptlet.Main

open Scriptlet in
/-- The program: a prompt, a script, or a word on how it is used. -/
def main (args : List String) : IO UInt32 := do
  let setting := (← IO.getEnv "NICEDEBUG").getD ""
  let session := Session.start (Command.asksForTrees (Text.ofString setting))
  match args with
  | [] =>
    Main.put (← IO.getStdout) Command.prompt
    Main.promptLoop session
  | [path] =>
    Main.finish (Command.runScript session (Text.ofString path) (← Main.load path)).2
  | _ => Main.finish ⟨Command.failure, Command.usage, []⟩
