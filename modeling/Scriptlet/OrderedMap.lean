/-
Scriptlet.OrderedMap — finite maps that remember the order of their keys.

A key has its place from when it was first inserted. Inserting it again changes
its value and keeps the place, so that no key is ever there twice.

  §1 Maps.
  §2 Laws of look-up.
  §3 Laws of the keys.
-/
namespace Scriptlet

/-! ## §1 Maps -/

/-- Keys with their values, in the order of first insertion. -/
structure OrderedMap (κ α : Type) where
  /-- The entries. -/
  entries : List (κ × α)
  /-- Each key has one entry. -/
  distinct : (entries.map (·.1)).Nodup
deriving DecidableEq, Repr

namespace OrderedMap

variable {κ α : Type} [DecidableEq κ]

/-- The map without entries. -/
def empty : OrderedMap κ α := ⟨[], .nil⟩

instance : Inhabited (OrderedMap κ α) := ⟨empty⟩

/-- The keys in order. -/
def keys (m : OrderedMap κ α) : List κ := m.entries.map (·.1)

/-- The value of a key. -/
def get? (m : OrderedMap κ α) (k : κ) : Option α := m.entries.lookup k

/-- Has a key a value? -/
def contains (m : OrderedMap κ α) (k : κ) : Bool := (m.get? k).isSome

/-- Entries with a value put at a key: in its place if it has one, else at the end. -/
def put (k : κ) (a : α) : List (κ × α) → List (κ × α)
  | [] => [(k, a)]
  | (j, b) :: rest => if j = k then (j, a) :: rest else (j, b) :: put k a rest

theorem map_fst_put (k : κ) (a : α) (l : List (κ × α)) :
    (put k a l).map (·.1) = if k ∈ l.map (·.1) then l.map (·.1) else l.map (·.1) ++ [k] := by
  induction l with
  | nil => simp [put]
  | cons entry rest ih =>
    obtain ⟨j, b⟩ := entry
    by_cases h : j = k
    · simp [put, h]
    · simp only [put, h, ↓reduceIte, List.map_cons, ih, List.mem_cons, Ne.symm h, false_or]
      split <;> simp

theorem nodup_put {l : List (κ × α)} (distinct : (l.map (·.1)).Nodup) (k : κ) (a : α) :
    ((put k a l).map (·.1)).Nodup := by
  rw [map_fst_put]
  split
  · exact distinct
  · next new =>
    refine List.nodup_append.mpr ⟨distinct, by simp, ?_⟩
    rintro j old _ (_ | ⟨_, none⟩) rfl
    · exact new old
    · cases none

/-- Gives a key a value. -/
def insert (m : OrderedMap κ α) (k : κ) (a : α) : OrderedMap κ α :=
  ⟨put k a m.entries, nodup_put m.distinct k a⟩

/-! ## §2 Laws of look-up -/

theorem lookup_put_self (k : κ) (a : α) (l : List (κ × α)) : (put k a l).lookup k = some a := by
  induction l with
  | nil => simp [put]
  | cons entry rest ih =>
    obtain ⟨j, b⟩ := entry
    by_cases h : j = k
    · simp [put, h]
    · have ne : (k == j) = false := by simp [Ne.symm h]
      simp [put, h, List.lookup_cons, ne, ih]

theorem lookup_put_of_ne {k j : κ} (h : j ≠ k) (a : α) (l : List (κ × α)) :
    (put k a l).lookup j = l.lookup j := by
  induction l with
  | nil => simp [put, h]
  | cons entry rest ih =>
    obtain ⟨i, b⟩ := entry
    by_cases eq : i = k
    · have ne : (j == k) = false := by simp [h]
      simp [put, eq, List.lookup_cons, ne]
    · simp [put, eq, List.lookup_cons, ih]

/-- A key has the value it was given last. -/
@[simp] theorem get?_insert_self (m : OrderedMap κ α) (k : κ) (a : α) :
    (m.insert k a).get? k = some a :=
  lookup_put_self k a m.entries

/-- Inserting a key changes no other. -/
theorem get?_insert_of_ne {k j : κ} (h : j ≠ k) (m : OrderedMap κ α) (a : α) :
    (m.insert k a).get? j = m.get? j :=
  lookup_put_of_ne h a m.entries

theorem get?_insert (m : OrderedMap κ α) (k : κ) (a : α) (j : κ) :
    (m.insert k a).get? j = if j = k then some a else m.get? j := by
  split
  · next h => rw [h, get?_insert_self]
  · next h => exact get?_insert_of_ne h m a

/-! ## §3 Laws of the keys -/

/-- A key that is already there keeps its place, a new one goes to the end. -/
theorem keys_insert (m : OrderedMap κ α) (k : κ) (a : α) :
    (m.insert k a).keys = if k ∈ m.keys then m.keys else m.keys ++ [k] :=
  map_fst_put k a m.entries

/-- Of a list with one more element, only a new one counts. -/
theorem eraseDups_concat {β : Type} [BEq β] [LawfulBEq β] (bs : List β) (b : β) :
    (bs ++ [b]).eraseDups = if b ∈ bs then bs.eraseDups else bs.eraseDups ++ [b] := by
  rw [List.eraseDups_append]
  by_cases h : b ∈ bs
  · simp [List.removeAll, h]
  · have single : [b].eraseDups = [b] := by rw [List.eraseDups_cons]; rfl
    simp [List.removeAll, h, single]

theorem isSome_lookup (k : κ) (l : List (κ × α)) :
    (l.lookup k).isSome = true ↔ k ∈ l.map (·.1) := by
  induction l with
  | nil => simp
  | cons entry rest ih =>
    obtain ⟨j, b⟩ := entry
    by_cases h : k = j
    · simp [h]
    · have ne : (k == j) = false := by simp [h]
      rw [List.lookup_cons, ne, ih, List.map_cons, List.mem_cons]
      simp [h]

/-- The keys are what has a value. -/
theorem contains_iff_mem_keys (m : OrderedMap κ α) (k : κ) : m.contains k = true ↔ k ∈ m.keys :=
  isSome_lookup k m.entries

theorem lookup_of_mem {l : List (κ × α)} (nodup : (l.map (·.1)).Nodup) {k : κ} {a : α}
    (mem : (k, a) ∈ l) : l.lookup k = some a := by
  induction l with
  | nil => simp at mem
  | cons entry rest ih =>
    obtain ⟨j, b⟩ := entry
    rw [List.map_cons, List.nodup_cons] at nodup
    rcases List.mem_cons.mp mem with first | later
    · simp_all
    · have ne : (k == j) = false := by
        rw [beq_eq_false_iff_ne]
        rintro rfl
        exact nodup.1 (List.mem_map.mpr ⟨_, later, rfl⟩)
      rw [List.lookup_cons, ne]
      exact ih nodup.2 later

/-- Every entry is that of its key. -/
theorem get?_of_mem {m : OrderedMap κ α} {k : κ} {a : α} (mem : (k, a) ∈ m.entries) :
    m.get? k = some a :=
  lookup_of_mem m.distinct mem

end OrderedMap

end Scriptlet
