/-
Scriptlet.Editor.Server — an editor's questions and their answers.

A server knows the documents that are open, the files of a workspace and the
index of declarations, by document and once more by name. Opening or changing a
document indexes it anew and publishes its problems. The files of the workspace
are indexed once, when a declaration is first asked for; documents that are
indexed already are left alone, and what cannot be read is passed over.

  §1 The state of a server.
  §2 Documents.
  §3 The index.
  §4 Requests and responses.
-/
import Scriptlet.Command.FileTree
import Scriptlet.Editor.Index
import Scriptlet.Editor.Uri
import Scriptlet.Editor.Word
import Scriptlet.Text.Newline

namespace Scriptlet.Editor

/-! ## §1 The state of a server -/

/-- The directory that an editor works in. -/
structure Workspace where
  /-- The files below it. -/
  files : FileTree
  /-- Is it known to the server as its root? -/
  isRoot : Bool
deriving DecidableEq, Repr, Inhabited

/-- The state of a server. -/
structure Server where
  /-- The workspace. -/
  workspace : Workspace
  /-- The texts of the open documents. -/
  opened : OrderedMap Text Text
  /-- The declarations of the indexed documents. -/
  index : Index
  /-- The same declarations by their names. -/
  names : Names
  /-- Have the files of the workspace been indexed? -/
  scanned : Bool
deriving DecidableEq, Repr, Inhabited

/-- Why a document has no text. -/
inductive DocumentError where
  /-- Its URI may not name its host. -/
  | malformedUri
  /-- The path of its file holds a NUL. -/
  | nulInPath
  /-- Its file cannot be read. -/
  | unreadable (reason : FileTree.ReadError)
  /-- Its file is not UTF-8. -/
  | undecodable
deriving DecidableEq, Repr, Inhabited

/-! ## §2 Documents -/

/-- The text of a file. -/
def fileText? (content : Bytes) : Option Text := (Text.ofBytes? content).map Text.unifyNewlines

/-- The text that reading a file gives. -/
def textOf : Except FileTree.ReadError Bytes → Except DocumentError Text
  | .error reason => .error (.unreadable reason)
  | .ok content => (fileText? content).elim (.error .undecodable) .ok

namespace Workspace

/-- The text of the file at a path, which starts at the root even without a slash in front. -/
def read (w : Workspace) (path : Text) : Except DocumentError Text :=
  if FileTree.holdsNul path then .error .nulInPath else textOf (w.files.readFrom [] path)

/-- The URI of a file below the workspace. -/
def uriOf (w : Workspace) (parts : List Text) : Text :=
  Uri.ofPath ((w.files.location ++ parts).flatMap fun part => .char '/' :: part)

/-- The end of the names of scripts. -/
def scriptSuffix : Text := ".nice"

/-- Whatever in the workspace is named like a script, by its URI, with its text or the reason why it
has none. -/
def scripts (w : Workspace) : List (Text × Except DocumentError Text) :=
  w.files.nodes.filterMap fun (parts, node) =>
    if scriptSuffix.isSuffixOf (parts.getLast?.getD []) then
      some (w.uriOf parts, textOf node.content)
    else none

end Workspace

namespace Server

/-- A server that knows nothing but its workspace. -/
def start (w : Workspace) : Server := ⟨w, .empty, .empty, .empty, false⟩

/-- The path of the file of a document. -/
def documentPath (uri : Text) : Except DocumentError Text :=
  (Uri.path? uri).elim (.error .malformedUri) .ok

/-- Makes a text that of an open document. Its file need not exist. -/
def openDocument (s : Server) (uri text : Text) : Except DocumentError Server := do
  let _ ← documentPath uri
  return { s with opened := s.opened.insert uri text }

/-- The text of a document: that of the open document, or else of its file. -/
def documentText (s : Server) (uri : Text) : Except DocumentError Text := do
  match s.opened.get? uri with
  | some text => return text
  | none => s.workspace.read (← documentPath uri)

/-! ## §3 The index -/

/-- Groups all declarations by their names anew. -/
def regroup (s : Server) : Server := { s with names := s.index.byName }

/-- Indexes a text as that of a document. -/
def updateIndex (s : Server) (uri text : Text) : Server × List Problem :=
  let analysis := analyze uri text
  ({ s with index := s.index.insert uri analysis.declarations }.regroup, analysis.problems)

/-- Indexes a script of the workspace, unless its document has been indexed or it has no text. -/
def scanOne (s : Server) (script : Text × Except DocumentError Text) : Server :=
  if s.index.contains script.1 then s
  else
    match script.2 with
    | .error _ => s
    | .ok text => (s.updateIndex script.1 text).1

/-- Indexes the files of the workspace, if that has not been done. -/
def scan (s : Server) : Server :=
  if s.scanned then s
  else
    let scripts := if s.workspace.isRoot then s.workspace.scripts else []
    { scripts.foldl scanOne s with scanned := true }

/-- The declaration that a word leads to. An empty word leads nowhere, and nothing is indexed for
it. -/
def lookup (s : Server) (word : Text) : Server × Option Declaration :=
  if word.isEmpty then (s, none)
  else
    let s' := s.scan
    (s', s'.names.first? word)

/-- The declaration that the word at a position of a document leads to. -/
def lookupAt (s : Server) (uri : Text) (line column : Nat) :
    Except DocumentError (Server × Option Declaration) := do
  let text ← s.documentText uri
  return s.lookup (wordAt text line column)

/-! ## §4 Requests and responses -/

/-- What can be asked of a server. -/
inductive Request where
  /-- A document is opened with a text. -/
  | opened (uri text : Text)
  /-- A document was changed; its new text, unless that is to be looked up. -/
  | changed (uri : Text) (text : Option Text)
  /-- A text is to be indexed as that of a document, open or not. -/
  | indexed (uri text : Text)
  /-- The declarations of a document are asked for. -/
  | outline (uri : Text)
  /-- The declaration of a word is asked for. -/
  | declarationOf (word : Text)
  /-- The declarations of all names known so far are asked for. -/
  | names
  /-- The declaration of the word at a position is asked for. -/
  | definition (uri : Text) (line column : Nat)
  /-- A description of the word at a position is asked for. -/
  | hover (uri : Text) (line column : Nat)
deriving DecidableEq, Repr, Inhabited

/-- The answer to a request. -/
inductive Response where
  | done
  | problems (found : List Problem)
  | outline (found : List Declaration)
  | declaration (found : Option Declaration)
  | names (found : Names)
  | location (found : Option (Text × Range))
  | description (found : Option Text)
  | failed (e : DocumentError)
deriving DecidableEq, Repr, Inhabited

/-- The problems of a document, for an editor to show. -/
abbrev Publication := Text × List Problem

/-- Answers a request that looks up the word at a position. -/
def answerAt (s : Server) (uri : Text) (line column : Nat)
    (answer : Option Declaration → Response) : Server × Response × List Publication :=
  match s.lookupAt uri line column with
  | .ok (s', found) => (s', answer found, [])
  | .error e => (s, .failed e, [])

/-- Indexes a document anew and publishes its problems. -/
def refresh (s : Server) (uri text : Text) : Server × List Publication :=
  let (s', problems) := s.updateIndex uri text
  (s', [(uri, problems)])

/-- Gives a document a new text, unless there is none, and refreshes it. -/
def update (s : Server) (uri : Text) (text? : Option Text) :
    Except DocumentError (Server × List Publication) := do
  let s' ← text?.elim (.ok s) (s.openDocument uri)
  return s'.refresh uri (← s'.documentText uri)

/-- Answers a request that updates a document. -/
def answerUpdate (s : Server) (uri : Text) (text? : Option Text) :
    Server × Response × List Publication :=
  match s.update uri text? with
  | .ok (s', published) => (s', .done, published)
  | .error e => (s, .failed e, [])

/-- Answers a request. -/
def handle (s : Server) : Request → Server × Response × List Publication
  | .opened uri text => s.answerUpdate uri (some text)
  | .changed uri text? => s.answerUpdate uri text?
  | .indexed uri text =>
    let (s', problems) := s.updateIndex uri text
    (s', .problems problems, [])
  | .outline uri => (s, .outline (s.index.declarations uri), [])
  | .declarationOf word =>
    let (s', found) := s.lookup word
    (s', .declaration found, [])
  | .names => (s, .names s.names, [])
  | .definition uri line column =>
    s.answerAt uri line column fun found => .location (found.map fun d => (d.uri, d.range))
  | .hover uri line column =>
    s.answerAt uri line column fun found => .description (found.map (·.detail))

end Server

end Scriptlet.Editor
