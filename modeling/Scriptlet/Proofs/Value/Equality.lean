/-
Scriptlet.Proofs.Value.Equality — equal values are those that print the same, and the
zeros.

Doubles are equal as values if they have the same rank: their place among the
numbers, or that of no number (`same_iff_rank`). This makes equality an equivalence,
on NaNs too. The place of a double tells its sign and its magnitude unless it is a
zero, and so does its text; so two values of one kind are equal exactly if they print
the same, but that the two zeros are equal and print differently.

  §1 Doubles.
  §2 Values.
-/
import Scriptlet.Proofs.Decimal.Faithful
import Scriptlet.Value

namespace Scriptlet

/-! ## §1 Doubles -/

namespace Double

/-- The place of a double among the numbers; a NaN has none. -/
def rank (x : Double) : Option Int := if x.isNaN then none else some x.place

/-- Doubles are equal as values exactly if their ranks are. -/
theorem same_iff_rank (x y : Double) : x.same y = true ↔ x.rank = y.rank := by
  cases nan : x.isNaN <;> cases nan' : y.isNaN <;> simp [same, numEq, rank, nan, nan']

/-- Doubles with the same place are the same or both zero. -/
theorem place_eq_iff (x y : Double) :
    x.place = y.place ↔ x = y ∨ x.isZero = true ∧ y.isZero = true := by
  simp only [isZero, beq_iff_eq]
  constructor
  · intro places
    by_cases zero : x.magnitude = 0 ∧ y.magnitude = 0
    · exact .inr zero
    · left
      have told : x.isNegative = y.isNegative ∧ x.magnitude = y.magnitude := by
        unfold place at places
        cases sign : x.isNegative <;> cases sign' : y.isNegative <;>
          simp only [sign, sign', if_true, if_false, Bool.false_eq_true] at places <;>
          simp <;> omega
      rw [← x.ofMagnitude_magnitude, ← y.ofMagnitude_magnitude, told.1, told.2]
  · rintro (rfl | ⟨zero, zero'⟩)
    · rfl
    · simp [place, zero, zero']

theorem not_isNaN_of_isZero {x : Double} (zero : x.isZero = true) : x.isNaN = false := by
  rw [isZero, beq_iff_eq] at zero
  simp [isNaN, zero, infinite]

/-- Doubles are equal as values exactly if they print the same or both are zeros. -/
theorem same_iff_briefForm (x y : Double) : x.same y = true ↔
    x.briefForm = y.briefForm ∨ x.isZero = true ∧ y.isZero = true := by
  have zero (h : x.isZero = true ∧ y.isZero = true) : x.isNaN = false ∧ y.isNaN = false :=
    h.imp not_isNaN_of_isZero not_isNaN_of_isZero
  rw [same_iff_rank, briefForm_eq_iff, rank, rank]
  cases nan : x.isNaN <;> cases nan' : y.isNaN
  case false.false => simp [place_eq_iff]
  case true.true => simp
  -- a NaN is no other double and no zero
  case false.true | true.false =>
    rw [nan, nan'] at zero
    refine ⟨by simp, ?_⟩
    rintro ((rfl | ⟨left, right⟩) | zeros)
    · rw [nan] at nan'
      cases nan'
    · cases left <;> cases right
    · cases (zero zeros).1 <;> cases (zero zeros).2

end Double

/-! ## §2 Values -/

namespace Value

/-- Is the value one of the two zeros? -/
def isZero : Value → Bool
  | .number x => x.isZero
  | _ => false

/-- Equal values are the same, or they are numbers of the same rank. -/
theorem equals_iff (v w : Value) : v.equals w = true ↔
    v = w ∨ ∃ x y, v = .number x ∧ w = .number y ∧ x.rank = y.rank := by
  cases v <;> cases w
  case number.number x y =>
    rw [equals, Double.same_iff_rank]
    constructor
    · intro ranks
      exact .inr ⟨x, y, rfl, rfl, ranks⟩
    · rintro (same | ⟨_, _, same, same', ranks⟩)
      · rw [Value.number.inj same]
      · rw [Value.number.inj same, Value.number.inj same', ranks]
  all_goals simp [equals]

theorem equals_trans {u v w : Value} (first : u.equals v = true) (second : v.equals w = true) :
    u.equals w = true := by
  rw [equals_iff] at *
  rcases first with rfl | ⟨x, y, rfl, rfl, ranks⟩
  · exact second
  · rcases second with rfl | ⟨y', z, same, rfl, ranks'⟩
    · exact .inr ⟨x, y, rfl, rfl, ranks⟩
    · obtain rfl := Value.number.inj same
      exact .inr ⟨x, z, rfl, rfl, ranks.trans ranks'⟩

theorem kindName_of_equals {v w : Value} (h : v.equals w = true) : v.kindName = w.kindName := by
  rcases (equals_iff v w).mp h with rfl | ⟨x, y, rfl, rfl, -⟩ <;> rfl

/-- Values of one kind are equal exactly if they print the same or both are zeros. -/
theorem equals_iff_text {v w : Value} (kind : v.kindName = w.kindName) :
    v.equals w = true ↔ v.text = w.text ∨ v.isZero = true ∧ w.isZero = true := by
  match v, w with
  | .nil, .nil => simp [equals, text]
  | .bool a, .bool b => cases a <;> cases b <;> decide
  | .string t, .string u => simp [equals, text, isZero]
  | .number x, .number y =>
    have texts : (Value.number x).text = (Value.number y).text ↔ x.briefForm = y.briefForm :=
      List.map_inj_right fun _ _ => Symbol.char.inj
    rw [equals, texts]
    exact x.same_iff_briefForm y
  | .nil, .bool _ | .nil, .number _ | .nil, .string _ | .bool _, .nil | .bool _, .number _
  | .bool _, .string _ | .number _, .nil | .number _, .bool _ | .number _, .string _
  | .string _, .nil | .string _, .bool _ | .string _, .number _ =>
    exact absurd kind (by simp [kindName])

/-- **Equality is an equivalence, and equal values print the same.** Every value equals itself,
NaNs included; equality is symmetric and transitive, and relates no values of different kinds. Two
values of the same kind are equal exactly if they print the same or both are zeros. -/
theorem equals_matches_text :
    (∀ v : Value, v.equals v = true) ∧
    (∀ v w : Value, v.equals w = true → w.equals v = true) ∧
    (∀ u v w : Value, u.equals v = true → v.equals w = true → u.equals w = true) ∧
    (∀ v w : Value, v.equals w = true → v.kindName = w.kindName) ∧
    ∀ v w : Value, v.kindName = w.kindName →
      (v.equals w = true ↔ v.text = w.text ∨ v.isZero = true ∧ w.isZero = true) := by
  refine ⟨equals_refl, fun v w h => equals_comm v w ▸ h, fun u v w => equals_trans,
    fun v w => kindName_of_equals, fun v w => equals_iff_text⟩

/-- Two NaNs are equal and print the same, the zeros are equal and print differently, and a number
does not equal the string that prints the same. -/
theorem equals_matches_text_special :
    let quiet : Value := .number ⟨0x7FF8000000000000⟩
    let other : Value := .number ⟨0xFFF0000000000001⟩
    let zero : Value := .number ⟨0⟩
    let negativeZero : Value := .number ⟨0x8000000000000000⟩
    (quiet.equals other = true ∧ quiet.text = other.text) ∧
    (zero.equals negativeZero = true ∧ zero.text = "0" ∧ negativeZero.text = "-0") ∧
    (zero.text = (Value.string "0").text ∧ zero.equals (.string "0") = false) := by
  intro quiet other zero negativeZero
  obtain ⟨-, -, -, kinds, texts⟩ := equals_matches_text
  have nans : quiet.equals other = true := by decide
  have sameText : quiet.text = other.text :=
    ((texts quiet other rfl).mp nans).resolve_right (by decide)
  have zeros : zero.equals negativeZero = true :=
    (texts zero negativeZero rfl).mpr (.inr (by decide))
  have apart : zero.equals (.string "0") = false := by
    rw [Bool.eq_false_iff]
    intro equal
    exact absurd (kinds _ _ equal) (by decide)
  exact ⟨⟨nans, sameText⟩, ⟨zeros, by decide, by decide⟩, by decide, apart⟩

end Value

end Scriptlet
