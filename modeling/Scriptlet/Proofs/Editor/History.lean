/-
Scriptlet.Proofs.Editor.History — the index of a server is told by its history.

What a server has indexed depends on all that happened to it: on the texts it was
given, in which order, and on the first time that a declaration was asked for,
since the files of the workspace are read then and never again. Files may change
between any two requests. The history alone tells, without a look at the server,
which documents are indexed, in which order, and with which texts. The server
keeps its declarations a second time by their names, and that map has to be in
step with the index. One event keeps the server in line with its history
(`Reflects.receive`), and so every run does (`reflects_after`).

  §1 Histories.
  §2 What a request does to a server.
  §3 Scanning the workspace.
  §4 Servers in line with their history.
-/
import Mathlib.Data.List.Induction
import Scriptlet.Editor.Server

namespace Scriptlet.Editor

open Server (Request)
open OrderedMap (eraseDups_concat)

/-! ## §1 Histories -/

namespace Server.Request

/-- The document that a request puts into the server's hands, with its text. -/
def given? : Request → Option (Text × Text)
  | .opened uri text | .changed uri (some text) =>
    if (Uri.path? uri).isSome then some (uri, text) else none
  | _ => none

/-- The open documents as a request leaves them. -/
def openedAfter (opened : OrderedMap Text Text) (r : Request) : OrderedMap Text Text :=
  r.given?.elim opened fun d => opened.insert d.1 d.2

/-- The document that a request has indexed anew, with its text. A change that does not tell the new
text is about the text that the document has anyway. -/
def delivered? (texts : Text → Option Text) : Request → Option (Text × Text)
  | .changed uri none => (texts uri).map (uri, ·)
  | .indexed uri text => some (uri, text)
  | r => r.given?

/-- The word whose declaration a request asks for. -/
def word? (texts : Text → Option Text) : Request → Option Text
  | .declarationOf word => some word
  | .definition uri line column | .hover uri line column =>
    (texts uri).map (wordAt · line column)
  | _ => none

/-- Does a request ask for the declaration of a word? Nothing is asked by an empty one. -/
def looksUp (texts : Text → Option Text) (r : Request) : Bool :=
  (r.word? texts).any fun word => !word.isEmpty

end Server.Request

/-- The scripts that have a text, with it. -/
def Workspace.legible (scripts : List (Text × Except DocumentError Text)) : List (Text × Text) :=
  scripts.filterMap fun script => script.2.toOption.map (script.1, ·)

/-- The scripts that are indexed if the workspace is scanned. -/
def Workspace.toScan (w : Workspace) : List (Text × Text) :=
  if w.isRoot then legible w.scripts else []

/-- Is there a script of the given URI that can be read and decoded? A locked file, a directory and
a file that is not UTF-8 are no such scripts, whatever their names. Of a workspace that is not known
as the root of the server, nothing is. -/
def Workspace.HasScript (w : Workspace) (uri : Text) : Prop :=
  w.isRoot = true ∧ ∃ parts content, (parts, .file content) ∈ w.files.nodes ∧
    scriptSuffix.isSuffixOf (parts.getLast?.getD []) = true ∧
    (fileText? content).isSome = true ∧ w.uriOf parts = uri

/-- A request, and the workspace as it is when the request comes. -/
structure Event where
  workspace : Workspace
  request : Request
deriving DecidableEq, Repr, Inhabited

/-- All that has happened to a server, the latest event first. -/
abbrev History := List Event

namespace History

/-- The text that a document was given last. -/
def given? (history : History) (uri : Text) : Option Text :=
  (history.filterMap (·.request.given?)).lookup uri

/-- The text of a document: what it was given last, or else the text of its file. -/
def documentText? (history : History) (w : Workspace) (uri : Text) : Option Text :=
  (history.given? uri).or ((Uri.path? uri).bind fun path => (w.read path).toOption)

/-- What an event has indexed anew. -/
def delivered? (before : History) (e : Event) : Option (Text × Text) :=
  e.request.delivered? (before.documentText? e.workspace)

/-- Does an event ask for a declaration? -/
def looksUp (before : History) (e : Event) : Bool :=
  e.request.looksUp (before.documentText? e.workspace)

/-- Was a declaration ever asked for? -/
def hasLookedUp : History → Bool
  | [] => false
  | e :: before => looksUp before e || hasLookedUp before

/-- All texts that were indexed anew, the latest first. -/
def deliveries : History → List (Text × Text)
  | [] => []
  | e :: before => (delivered? before e).toList ++ deliveries before

/-- Is an event the first that asks for a declaration? -/
def isFirstLookUp (before : History) (e : Event) : Bool :=
  looksUp before e && !hasLookedUp before

/-- The scripts that were there when a declaration was first asked for. -/
def scanned : History → List (Text × Text)
  | [] => []
  | e :: before => if isFirstLookUp before e then e.workspace.toScan else scanned before

/-- The text with which a document is indexed: the latest delivered, or else the one that was
scanned. -/
def text? (history : History) (uri : Text) : Option Text :=
  (history.deliveries.lookup uri).or (history.scanned.lookup uri)

/-- The documents in the order in which there was reason to index them, the earliest first. -/
def indexings : History → List Text
  | [] => []
  | e :: before =>
    indexings before ++ (delivered? before e).toList.map (·.1) ++
      if isFirstLookUp before e then e.workspace.toScan.map (·.1) else []

/-- The documents that are indexed, in the order in which they first were. -/
def documents (history : History) : List Text := history.indexings.eraseDups

/-- The declarations of a document. -/
def declarations (history : History) (uri : Text) : List Declaration :=
  (history.text? uri).elim [] fun text => (analyze uri text).declarations

end History

namespace Server

/-- The state of a server behind an event. -/
def receive (s : Server) (e : Event) : Server :=
  ({ s with workspace := e.workspace }.handle e.request).1

/-- The state of a new server behind all events of a history. -/
def after (w : Workspace) : History → Server
  | [] => start w
  | e :: before => (after w before).receive e

/-! ## §2 What a request does to a server -/

/-- The texts that documents have for a server. -/
def text? (s : Server) (uri : Text) : Option Text := (s.documentText uri).toOption

theorem text?_eq (s : Server) (uri : Text) : s.text? uri = (s.opened.get? uri).or
    ((Uri.path? uri).bind fun path => (s.workspace.read path).toOption) := by
  unfold text? documentText
  cases s.opened.get? uri with
  | some text => rfl
  | none =>
    unfold documentPath
    cases Uri.path? uri <;> rfl

theorem index_updateIndex (s : Server) (uri text : Text) :
    (s.updateIndex uri text).1.index = s.index.insert uri (analyze uri text).declarations := rfl

theorem fst_lookup (s : Server) (word : Text) :
    (s.lookup word).1 = if !word.isEmpty then s.scan else s := by
  unfold lookup
  cases word.isEmpty <;> rfl

theorem snd_lookup {s : Server} {word : Text} (nonempty : word ≠ []) :
    (s.lookup word).2 = (s.lookup word).1.names.first? word := by
  unfold lookup
  cases word with
  | nil => exact absurd rfl nonempty
  | cons => rfl

theorem fst_answerAt (s : Server) (uri : Text) (line column : Nat)
    (answer : Option Declaration → Response) :
    (s.answerAt uri line column answer).1 =
      if ((s.text? uri).map (wordAt · line column)).any (fun word => !word.isEmpty) then s.scan
      else s := by
  unfold answerAt lookupAt text?
  cases s.documentText uri with
  | error e => rfl
  | ok text => exact s.fst_lookup (wordAt text line column)

/-- A document is indexed with the text that it has once it was given one, if it was. -/
theorem fst_answerUpdate {s s' : Server} {uri : Text} {text? : Option Text}
    (h : text?.elim (.ok s) (s.openDocument uri) = .ok s') :
    (s.answerUpdate uri text?).1 =
      match s'.text? uri with
      | some text => (s'.updateIndex uri text).1
      | none => s := by
  simp only [answerUpdate, update, h, bind, Except.bind, Server.text?]
  cases s'.documentText uri <;> rfl

theorem fst_answerUpdate_some (s : Server) (uri text : Text) :
    (s.answerUpdate uri (some text)).1 =
      if (Uri.path? uri).isSome then
        ({ s with opened := s.opened.insert uri text }.updateIndex uri text).1
      else s := by
  have opening : s.openDocument uri text = (Uri.path? uri).elim (.error .malformedUri)
      fun _ => .ok { s with opened := s.opened.insert uri text } := by
    unfold openDocument documentPath
    cases Uri.path? uri <;> rfl
  cases path : Uri.path? uri with
  | none =>
    rw [path, Option.elim_none] at opening
    simp only [answerUpdate, update, Option.elim_some, opening, bind, Except.bind]
    rfl
  | some path' =>
    have given : (some text).elim (.ok s) (s.openDocument uri) =
        .ok { s with opened := s.opened.insert uri text } := by
      rw [Option.elim_some, opening, path]
      rfl
    rw [fst_answerUpdate given, text?_eq, OrderedMap.get?_insert_self]
    rfl

/-- A server takes what is given into its hands, indexes what is delivered, and scans the workspace
if a declaration is asked for. There is nothing else that a request does to it. -/
theorem fst_handle (s : Server) (r : Request) :
    (s.handle r).1 =
      match r.delivered? s.text? with
      | some (uri, text) =>
        ({ s with opened := r.openedAfter s.opened }.updateIndex uri text).1
      | none => if r.looksUp s.text? then s.scan else s := by
  cases r with
  | opened uri text =>
    simp only [handle, fst_answerUpdate_some, Request.delivered?, Request.openedAfter,
      Request.given?]
    cases Uri.path? uri <;> rfl
  | changed uri text? =>
    cases text? with
    | some text =>
      simp only [handle, fst_answerUpdate_some, Request.delivered?, Request.openedAfter,
        Request.given?]
      cases Uri.path? uri <;> rfl
    | none =>
      rw [handle, fst_answerUpdate rfl, Request.delivered?]
      cases s.text? uri <;> rfl
  | indexed uri text => rfl
  | outline uri => rfl
  | declarationOf word => exact s.fst_lookup word
  | names => rfl
  | definition uri line column => exact s.fst_answerAt uri line column _
  | hover uri line column => exact s.fst_answerAt uri line column _

/-! ## §3 Scanning the workspace -/

theorem lookup_cons_eq (uri text : Text) (rest : List (Text × Text)) (other : Text) :
    ((uri, text) :: rest).lookup other = if other = uri then some text else rest.lookup other := by
  by_cases same : other = uri
  · simp [same]
  · simp [List.lookup_cons, beq_eq_false_iff_ne.mpr same, same]

/-- Indexes a script with a text, unless its document has been indexed. -/
def scanText (s : Server) (script : Text × Text) : Server := s.scanOne (script.1, .ok script.2)

/-- Scripts without a text are passed over. -/
theorem foldl_scanOne (scripts : List (Text × Except DocumentError Text)) (s : Server) :
    scripts.foldl scanOne s = (Workspace.legible scripts).foldl scanText s := by
  induction scripts generalizing s with
  | nil => rfl
  | cons script rest ih =>
    obtain ⟨uri, text⟩ := script
    cases text with
    | error e =>
      have passed : s.scanOne (uri, .error e) = s := by
        unfold scanOne
        split <;> rfl
      rw [List.foldl_cons, passed, ih]
      rfl
    | ok text => exact ih (s.scanOne (uri, .ok text))

theorem scan_eq (s : Server) : s.scan =
    if s.scanned then s else { s.workspace.toScan.foldl scanText s with scanned := true } := by
  have legible : (if s.workspace.isRoot then s.workspace.scripts else []).foldl scanOne s =
      s.workspace.toScan.foldl scanText s := by
    rw [foldl_scanOne, Workspace.toScan]
    split <;> rfl
  rw [← legible]
  rfl

/-- A script is indexed or left alone. -/
theorem scanText_cases (s : Server) (script : Text × Text) :
    s.index.contains script.1 = true ∧ s.scanText script = s ∨
      s.index.contains script.1 = false ∧
        s.scanText script = (s.updateIndex script.1 script.2).1 := by
  unfold scanText scanOne
  cases known : s.index.contains script.1 with
  | true => exact .inl ⟨rfl, rfl⟩
  | false => exact .inr ⟨rfl, rfl⟩

theorem scanText_eq (s : Server) (script : Text × Text) :
    s.scanText script =
      { s with index := (s.scanText script).index, names := (s.scanText script).names } := by
  rcases s.scanText_cases script with ⟨-, eq⟩ | ⟨-, eq⟩
  · rw [eq]
  · rw [eq]
    rfl

theorem foldl_scanText_eq (scripts : List (Text × Text)) (s : Server) :
    scripts.foldl scanText s =
      { s with
        index := (scripts.foldl scanText s).index
        names := (scripts.foldl scanText s).names } := by
  induction scripts generalizing s with
  | nil => rfl
  | cons script rest ih =>
    rw [List.foldl_cons, ih, scanText_eq s script]

/-- The declarations by name are those of the index. -/
def InStep (s : Server) : Prop := s.names = s.index.byName

theorem inStep_updateIndex (s : Server) (uri text : Text) : (s.updateIndex uri text).1.InStep := rfl

theorem InStep.scanText {s : Server} (h : s.InStep) (script : Text × Text) :
    (s.scanText script).InStep := by
  rcases s.scanText_cases script with ⟨-, eq⟩ | ⟨-, eq⟩ <;> rw [eq]
  · exact h
  · exact s.inStep_updateIndex script.1 script.2

theorem InStep.foldl_scanText {s : Server} (h : s.InStep) (scripts : List (Text × Text)) :
    (scripts.foldl Server.scanText s).InStep := by
  induction scripts generalizing s with
  | nil => exact h
  | cons script rest ih => exact ih (h.scanText script)

/-- A script is indexed behind all documents, unless it is among them. -/
theorem keys_scanText {s : Server} {uris : List Text} (keys : s.index.keys = uris.eraseDups)
    (script : Text × Text) :
    (s.scanText script).index.keys = (uris ++ [script.1]).eraseDups := by
  have known : s.index.contains script.1 = true ↔ script.1 ∈ uris := by
    rw [OrderedMap.contains_iff_mem_keys, keys, List.mem_eraseDups]
  rw [eraseDups_concat]
  rcases s.scanText_cases script with ⟨contained, eq⟩ | ⟨new, eq⟩ <;> rw [eq]
  · rw [if_pos (known.mp contained), keys]
  · have new : script.1 ∉ uris := fun mem => by simp [known.mpr mem] at new
    rw [if_neg new, index_updateIndex, OrderedMap.keys_insert, keys,
      if_neg (mt List.mem_eraseDups.mp new)]

theorem get?_scanText (s : Server) (script : Text × Text) (uri : Text) :
    (s.scanText script).index.get? uri = (s.index.get? uri).or
      (([script].lookup uri).map fun text => (analyze uri text).declarations) := by
  obtain ⟨uri', text⟩ := script
  by_cases same : uri = uri'
  · subst same
    rcases s.scanText_cases (uri, text) with ⟨contained, eq⟩ | ⟨new, eq⟩ <;> rw [eq]
    · obtain ⟨ds, known⟩ := Option.isSome_iff_exists.mp contained
      simp [known]
    · have unknown : s.index.get? uri = none := by
        simpa [OrderedMap.contains] using new
      simp [unknown, index_updateIndex]
  · have apart : [(uri', text)].lookup uri = none := by simp [same]
    rcases s.scanText_cases (uri', text) with ⟨-, eq⟩ | ⟨-, eq⟩ <;> rw [eq]
    · simp [apart]
    · simp [apart, index_updateIndex, OrderedMap.get?_insert_of_ne same]

theorem keys_foldl_scanText {s : Server} {uris : List Text} (keys : s.index.keys = uris.eraseDups)
    (scripts : List (Text × Text)) :
    (scripts.foldl scanText s).index.keys = (uris ++ scripts.map (·.1)).eraseDups := by
  induction scripts generalizing s uris with
  | nil => simpa using keys
  | cons script rest ih =>
    rw [List.foldl_cons, ih (keys_scanText keys script)]
    simp

theorem get?_foldl_scanText (s : Server) (scripts : List (Text × Text)) (uri : Text) :
    (scripts.foldl scanText s).index.get? uri = (s.index.get? uri).or
      ((scripts.lookup uri).map fun text => (analyze uri text).declarations) := by
  induction scripts generalizing s with
  | nil => simp
  | cons script rest ih =>
    rw [List.foldl_cons, ih, get?_scanText, Option.or_assoc, ← Option.map_or, ← List.lookup_append]
    rfl

end Server

/-! ## §4 Servers in line with their history -/

namespace Server.Request

variable {texts : Text → Option Text} {r : Request} {d : Text × Text}

theorem delivered?_of_given? (h : r.given? = some d) : r.delivered? texts = some d := by
  cases r with
  | opened uri text => exact h
  | changed uri text? =>
    cases text? with
    | some text => exact h
    | none => simp [given?] at h
  | _ => simp [given?] at h

theorem looksUp_of_delivered? (h : r.delivered? texts = some d) : r.looksUp texts = false := by
  cases r with
  | opened uri text | changed uri text? | indexed uri text | outline uri | names => rfl
  | declarationOf word | definition uri line column | hover uri line column =>
    simp [delivered?, given?] at h

end Server.Request

theorem History.isFirstLookUp_iff {before : History} {e : Event} :
    before.isFirstLookUp e = true ↔ before.looksUp e = true ∧ before.hasLookedUp = false := by
  simp [isFirstLookUp]

theorem History.scanned_of_not_hasLookedUp {history : History}
    (h : history.hasLookedUp = false) : history.scanned = [] := by
  induction history with
  | nil => rfl
  | cons e before ih =>
    rw [hasLookedUp, Bool.or_eq_false_iff] at h
    simp [scanned, isFirstLookUp, h, ih]

namespace Server

/-- The state of a server is the one that its history tells. -/
structure Reflects (history : History) (s : Server) : Prop where
  opened : ∀ uri, s.opened.get? uri = history.given? uri
  scanned : s.scanned = history.hasLookedUp
  documents : s.index.keys = history.documents
  texts : ∀ uri, s.index.get? uri =
    (history.text? uri).map fun text => (analyze uri text).declarations
  names : s.InStep

section Step

variable {before : History} {s : Server} {e : Event}

/-- What is delivered is indexed. -/
theorem Reflects.deliver (h : Reflects before s) {uri text : Text}
    (delivered : before.delivered? e = some (uri, text)) :
    Reflects (e :: before)
      ({ s with opened := e.request.openedAfter s.opened }.updateIndex uri text).1 := by
  have quiet : before.looksUp e = false := Request.looksUp_of_delivered? delivered
  have noScan : before.isFirstLookUp e = false := by simp [History.isFirstLookUp, quiet]
  refine ⟨fun other => ?_, ?_, ?_, fun other => ?_, inStep_updateIndex _ _ _⟩
  · show (e.request.openedAfter s.opened).get? other = _
    rw [Request.openedAfter]
    cases given : e.request.given? with
    | none => simpa [History.given?, given] using h.opened other
    | some d =>
      obtain ⟨uri', text'⟩ := d
      have latest : History.given? (e :: before) other =
          if other = uri' then some text' else before.given? other := by
        simp [History.given?, given, lookup_cons_eq]
      rw [Option.elim_some, OrderedMap.get?_insert, latest, h.opened]
  · rw [History.hasLookedUp, quiet, Bool.false_or]
    exact h.scanned
  · simp [index_updateIndex, OrderedMap.keys_insert, h.documents, History.documents,
      History.indexings, delivered, noScan, eraseDups_concat]
  · have latest : History.text? (e :: before) other =
        if other = uri then some text else before.text? other := by
      have deliveries : History.deliveries (e :: before) = (uri, text) :: before.deliveries := by
        simp [History.deliveries, delivered]
      have scanned : History.scanned (e :: before) = before.scanned := by
        simp [History.scanned, noScan]
      rw [History.text?, deliveries, scanned, lookup_cons_eq]
      split <;> rfl
    rw [latest, index_updateIndex, OrderedMap.get?_insert, h.texts]
    split
    · next same => rw [same]; rfl
    · rfl

theorem given?_of_delivered? (nothing : before.delivered? e = none) : e.request.given? = none := by
  cases given : e.request.given? with
  | none => rfl
  | some d =>
    rw [History.delivered?, Request.delivered?_of_given? given] at nothing
    cases nothing

theorem delivered?_of_isFirstLookUp (first : before.isFirstLookUp e = true) :
    before.delivered? e = none := by
  cases delivered : before.delivered? e with
  | none => rfl
  | some d =>
    have quiet : before.looksUp e = false := Request.looksUp_of_delivered? delivered
    rw [History.isFirstLookUp_iff, quiet] at first
    exact absurd first.1 Bool.false_ne_true

/-- What is neither delivered nor the first question changes nothing. -/
theorem Reflects.keep (h : Reflects before s) (nothing : before.delivered? e = none)
    (noScan : before.isFirstLookUp e = false) : Reflects (e :: before) s := by
  refine ⟨fun uri => ?_, ?_, ?_, fun uri => ?_, h.names⟩
  · simpa [History.given?, given?_of_delivered? nothing] using h.opened uri
  · rw [h.scanned, History.hasLookedUp]
    cases looked : before.hasLookedUp with
    | true => rw [Bool.or_true]
    | false =>
      have unasked : before.looksUp e = false := by
        simpa [History.isFirstLookUp, looked] using noScan
      rw [unasked, Bool.or_false]
  · simpa [History.documents, History.indexings, nothing, noScan] using h.documents
  · simpa [History.text?, History.deliveries, History.scanned, nothing, noScan] using h.texts uri

/-- The first question has the workspace scanned. -/
theorem Reflects.scan (h : Reflects before s) (first : before.isFirstLookUp e = true)
    (here : s.workspace = e.workspace) : Reflects (e :: before) s.scan := by
  have nothing := delivered?_of_isFirstLookUp first
  obtain ⟨asked, unasked⟩ := History.isFirstLookUp_iff.mp first
  have scan : s.scan = { e.workspace.toScan.foldl scanText s with scanned := true } := by
    rw [scan_eq, h.scanned, unasked, here]
    rfl
  rw [scan, foldl_scanText_eq]
  refine ⟨fun uri => ?_, ?_, ?_, fun uri => ?_, h.names.foldl_scanText e.workspace.toScan⟩
  · simpa [History.given?, given?_of_delivered? nothing] using h.opened uri
  · simp [History.hasLookedUp, asked]
  · simp [keys_foldl_scanText h.documents, History.documents, History.indexings, nothing, first]
  · -- nothing was scanned before, so whatever is indexed was delivered
    have unscanned := History.scanned_of_not_hasLookedUp unasked
    simp [get?_foldl_scanText, h.texts, History.text?, History.deliveries, History.scanned, nothing,
      first, unscanned, Option.map_or]

/-- Indexing what is delivered, scanning at the first question, and nothing: there is nothing else
that an event does to the index. -/
theorem Reflects.receive_cases (h : Reflects before s) (e : Event) :
    (∃ uri text, before.delivered? e = some (uri, text) ∧ s.receive e =
      ({ s with workspace := e.workspace, opened := e.request.openedAfter s.opened }.updateIndex
        uri text).1) ∨
    (before.isFirstLookUp e = true ∧
      s.receive e = { s with workspace := e.workspace }.scan) ∨
    (before.delivered? e = none ∧ before.isFirstLookUp e = false ∧
      s.receive e = { s with workspace := e.workspace }) := by
  have agree : ({ s with workspace := e.workspace } : Server).text? =
      before.documentText? e.workspace := by
    funext uri
    rw [text?_eq, History.documentText?, h.opened]
  have handled := fst_handle { s with workspace := e.workspace } e.request
  rw [agree, ← History.delivered?, ← History.looksUp] at handled
  rw [receive, handled]
  cases delivered : before.delivered? e with
  | some d => exact .inl ⟨d.1, d.2, rfl, rfl⟩
  | none =>
    cases asked : before.looksUp e with
    | false => exact .inr (.inr ⟨rfl, by simp [History.isFirstLookUp, asked], rfl⟩)
    | true =>
      cases looked : before.hasLookedUp with
      | false => exact .inr (.inl ⟨History.isFirstLookUp_iff.mpr ⟨asked, looked⟩, rfl⟩)
      | true =>
        refine .inr (.inr ⟨rfl, by simp [History.isFirstLookUp, looked], ?_⟩)
        rw [if_pos rfl, Server.scan, if_pos (h.scanned.trans looked)]

/-- An event keeps a server in line with its history. -/
theorem Reflects.receive (h : Reflects before s) (e : Event) :
    Reflects (e :: before) (s.receive e) := by
  have h' : Reflects before { s with workspace := e.workspace } :=
    ⟨h.opened, h.scanned, h.documents, h.texts, h.names⟩
  rcases h.receive_cases e with ⟨uri, text, delivered, eq⟩ | ⟨first, eq⟩ | ⟨nothing, noScan, eq⟩
  · rw [eq]
    exact h'.deliver delivered
  · rw [eq]
    exact h'.scan first rfl
  · rw [eq]
    exact h'.keep nothing noScan

end Step

end Server

end Scriptlet.Editor
