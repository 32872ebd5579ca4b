/-
Scriptlet.Editor.Index — the declarations of many documents.

Documents have their place from when they were first indexed. All declarations of
a name, over all documents, are listed by document and then by position, and the
first of them is the one that a name leads to.
-/
import Scriptlet.OrderedMap
import Scriptlet.Editor.Analysis

namespace Scriptlet.Editor

/-- The declarations of each document, by the document's URI. -/
abbrev Index := OrderedMap Text (List Declaration)

/-- The declarations of each name, over all documents. -/
abbrev Names := OrderedMap Text (List Declaration)

/-- The declaration that a name leads to: the first that it has. -/
def Names.first? (names : Names) (name : Text) : Option Declaration :=
  (names.get? name).bind List.head?

namespace Index

/-- The declarations of a document; none if it has not been indexed. -/
def declarations (index : Index) (uri : Text) : List Declaration := (index.get? uri).getD []

/-- All declarations, by document and then by position. -/
def all (index : Index) : List Declaration := index.entries.flatMap (·.2)

/-- Puts a declaration behind those of the same name. -/
def groupOne (groups : Names) (d : Declaration) : Names :=
  groups.insert d.name ((groups.get? d.name).getD [] ++ [d])

/-- The declarations of each name. -/
def byName (index : Index) : Names := index.all.foldl groupOne .empty

/-- Grouping keeps, for each name, its declarations in order. -/
theorem get?_foldl_groupOne (name : Text) (ds : List Declaration) (groups : Names) :
    ((ds.foldl groupOne groups).get? name).getD [] =
      (groups.get? name).getD [] ++ ds.filter (·.name = name) := by
  induction ds generalizing groups with
  | nil => simp
  | cons d rest ih =>
    rw [List.foldl_cons, ih]
    by_cases h : d.name = name
    · subst h
      simp [groupOne]
    · simp [groupOne, OrderedMap.get?_insert_of_ne (Ne.symm h), h]

theorem getD_get?_byName (index : Index) (name : Text) :
    (index.byName.get? name).getD [] = index.all.filter (·.name = name) :=
  get?_foldl_groupOne name index.all .empty

/-- A name leads to the first of its declarations. -/
theorem first?_byName (index : Index) (name : Text) :
    Names.first? index.byName name = index.all.find? (·.name = name) := by
  rw [← List.head?_filter, ← getD_get?_byName, Names.first?]
  cases index.byName.get? name <;> rfl

end Index

end Scriptlet.Editor
