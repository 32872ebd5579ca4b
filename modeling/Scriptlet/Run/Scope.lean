/-
Scriptlet.Run.Scope — the variables of a program.

All variables are global. A scope keeps them in the order of their first
declaration: declaring a name again, or assigning to it, keeps its place.
-/
import Scriptlet.OrderedMap
import Scriptlet.Value

namespace Scriptlet

/-- Names with their values, in the order of declaration. -/
abbrev Scope := OrderedMap Text Value

namespace Scope

/-- The names in order. -/
def names (s : Scope) : List Text := s.keys

/-- Declares a name with a value. -/
def define (s : Scope) (name : Text) (v : Value) : Scope := s.insert name v

/-- Assigns a value to a name that has been declared. -/
def assign? (s : Scope) (name : Text) (v : Value) : Option Scope :=
  if s.contains name then some (s.insert name v) else none

/-- A name that has been declared keeps its place, a new one goes to the end. -/
theorem names_define (s : Scope) (name : Text) (v : Value) :
    (s.define name v).names = if name ∈ s.names then s.names else s.names ++ [name] := by
  rw [define, names, OrderedMap.keys_insert]
  congr

/-- Assignment declares nothing. -/
theorem names_assign? {s s' : Scope} {name : Text} {v : Value} (h : s.assign? name v = some s') :
    s'.names = s.names := by
  unfold assign? at h
  split at h
  · next known =>
    obtain rfl := Option.some.inj h
    exact (names_define s name v).trans (if_pos ((s.contains_iff_mem_keys name).mp known))
  · cases h

/-- Assignment succeeds exactly for the names that have been declared. -/
theorem isSome_assign? (s : Scope) (name : Text) (v : Value) :
    (s.assign? name v).isSome = s.contains name := by
  unfold assign?
  split <;> simp_all

end Scope

end Scriptlet
