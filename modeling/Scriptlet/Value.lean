/-
Scriptlet.Value — what an expression can evaluate to.

There are four kinds of value: nil, booleans, numbers and strings. Equality
never relates two kinds and is reflexive on all values, so NaN equals NaN; the
two zeros are equal although they print differently.

  §1 Values and their kinds.
  §2 Truth and equality.
  §3 Text.
-/
import Scriptlet.Text.Basic
import Scriptlet.Decimal.Numeral

namespace Scriptlet

/-! ## §1 Values and their kinds -/

/-- A value of the language. -/
inductive Value where
  | nil
  | bool (b : Bool)
  | number (x : Double)
  | string (t : Text)
deriving DecidableEq, Repr, Inhabited

namespace Value

/-- The name of a value's kind. -/
def kindName : Value → String
  | .nil => "nil"
  | .bool _ => "boolean"
  | .number _ => "number"
  | .string _ => "string"

/-- Is the value a number? -/
def isNumber : Value → Bool
  | .number _ => true
  | _ => false

/-! ## §2 Truth and equality -/

/-- Nil and false are false, everything else is true. -/
def isTruthy : Value → Bool
  | .nil => false
  | .bool b => b
  | _ => true

/-- Equality of values, by kind and then by content. -/
def equals : Value → Value → Bool
  | .nil, .nil => true
  | .bool a, .bool b => a == b
  | .number x, .number y => x.same y
  | .string t, .string u => t == u
  | _, _ => false

@[simp] theorem equals_refl (v : Value) : v.equals v = true := by
  cases v <;> simp [equals]

theorem equals_comm (v w : Value) : v.equals w = w.equals v := by
  cases v <;> cases w <;> simp only [equals, Double.same_comm] <;> exact Bool.beq_comm

/-! ## §3 Text -/

/-- The text that printing a value shows. -/
def text : Value → Text
  | .nil => "nil"
  | .bool true => "true"
  | .bool false => "false"
  | .number x => x.briefForm.map .char
  | .string t => t

/-- The full form of a number; other values have none. -/
def fullForm? : Value → Option Text
  | .number x => some (x.fullForm.map .char)
  | _ => none

end Value

end Scriptlet
