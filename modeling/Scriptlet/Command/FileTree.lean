/-
Scriptlet.Command.FileTree — files below a directory.

A tree holds files and directories by their paths below one directory, and knows
where that directory is. Reading a path walks its components as an operating
system does and ends with the content of a file or with the reason why there is
none. A file may be locked, which shows when it is read. Of what is outside the
tree nothing is known but the directories that lead to it.

  §1 Trees.
  §2 Paths.
  §3 Reading.
-/
import Scriptlet.Text.Utf8

namespace Scriptlet

/-! ## §1 Trees -/

/-- What a path of a tree leads to. -/
inductive FileTree.Node where
  | file (content : Bytes)
  /-- A file that may not be read. -/
  | locked
  | directory
deriving DecidableEq, Repr, Inhabited

/-- Why a path cannot be read. -/
inductive FileTree.ReadError where
  | missing
  | isDirectory
  | notDirectory
  | nameTooLong
  | accessDenied
deriving DecidableEq, Repr, Inhabited

/-- Files and directories by the components of their paths. A directory that holds something need
not be listed. -/
structure FileTree where
  /-- The components of the absolute path of the directory that all is below. -/
  location : List Text
  /-- The nodes, with their paths below that directory. -/
  nodes : List (List Text × FileTree.Node)
deriving DecidableEq, Repr, Inhabited

namespace FileTree

/-- The words for a reason. -/
def ReadError.message : ReadError → Text
  | .missing => "No such file or directory"
  | .isDirectory => "Is a directory"
  | .notDirectory => "Not a directory"
  | .nameTooLong => "File name too long"
  | .accessDenied => "Permission denied"

/-- What reading a node gives. -/
def Node.content : Node → Except ReadError Bytes
  | .file content => .ok content
  | .locked => .error .accessDenied
  | .directory => .error .isDirectory

/-- The tree with nothing in it. -/
def empty (location : List Text) : FileTree := ⟨location, []⟩

/-- Does a component stand for the directory it is in? -/
def isHere (part : Text) : Bool := part == [] || part == [.char '.']

/-- Splits a path at its slashes. -/
def splitSlashes (path : Text) : List Text := Text.splitOn (.char '/') path

/-- The components of a path below the directory of the tree. -/
def components (path : Text) : List Text := (splitSlashes path).filter fun part => !isHere part

/-- Puts a node at a path, in place of what was there. -/
def insert (tree : FileTree) (path : Text) (node : Node) : FileTree :=
  let parts := components path
  let others := tree.nodes.filter fun entry => entry.1 != parts
  { tree with nodes := others ++ [(parts, node)] }

/-- What the components of a path below the directory lead to. -/
def find? (tree : FileTree) (parts : List Text) : Option Node :=
  match tree.nodes.lookup parts with
  | some node => some node
  | none =>
    if parts.isEmpty || tree.nodes.any (fun entry => parts.isPrefixOf entry.1) then
      some .directory
    else none

/-! ## §2 Paths -/

/-- Does a text hold a NUL? Then it cannot be a path at all. -/
def holdsNul (path : Text) : Bool := path.contains (.char '\x00')

/-- The components of an absolute path, without those that lead nowhere. A walk along a path goes
from spot to spot. -/
abbrev Spot := List Text

/-- What is at a spot. Above the tree are the directories that lead to it. -/
def nodeAt? (tree : FileTree) (spot : Spot) : Option Node :=
  if tree.location.isPrefixOf spot then tree.find? (spot.drop tree.location.length)
  else if spot.isPrefixOf tree.location then some .directory
  else none

/-- A component has at most so many bytes. -/
def maxComponent : Nat := 255

/-- A path has less than so many bytes. -/
def maxPath : Nat := 4096

/-- One step of a walk, from a directory to what is in it under a name. Two points lead to the
directory above; above the root is the root. -/
def stepTo (tree : FileTree) (spot : Spot) (part : Text) : Except ReadError Spot :=
  match tree.nodeAt? spot with
  | none => .error .missing
  | some (.file _) | some .locked => .error .notDirectory
  | some .directory =>
    if isHere part then .ok spot
    else if part = [.char '.', .char '.'] then .ok spot.dropLast
    else if maxComponent < part.bytes.length then .error .nameTooLong
    else if (tree.nodeAt? (spot ++ [part])).isSome then .ok (spot ++ [part])
    else .error .missing

/-! ## §3 Reading -/

/-- The content of the file at a spot. -/
def readAt (tree : FileTree) (spot : Spot) : Except ReadError Bytes :=
  match tree.nodeAt? spot with
  | some node => node.content
  | none => .error .missing

/-- The content of the file at a path. A path that starts with a slash starts at the root, any other
at the given spot. -/
def readFrom (tree : FileTree) (start : Spot) (path : Text) : Except ReadError Bytes :=
  if path.isEmpty then .error .missing
  else if maxPath ≤ path.bytes.length then .error .nameTooLong
  else do
    let first := if path.head? = some (.char '/') then [] else start
    tree.readAt (← (splitSlashes path).foldlM tree.stepTo first)

/-- The content of the file at a path that starts in the directory of the tree. -/
def read (tree : FileTree) (path : Text) : Except ReadError Bytes :=
  tree.readFrom tree.location path

end FileTree

end Scriptlet
