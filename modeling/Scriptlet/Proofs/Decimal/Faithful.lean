/-
Scriptlet.Proofs.Decimal.Faithful — the text of a number tells the number.

The full form of a finite double is a spelling of its shortest decimal, with the
double's own sign: plain for the zeros and from 10^-3 up to 10^7, with a power of ten
otherwise (`exists_spelling`). Rounding the rational number that is spelled gives the
double back. So no two doubles have the same full form, but that all NaNs have one
form in common (`fullForm_eq_iff`); and since the brief form tells the full form, the
same holds for brief forms (`briefForm_eq_iff`).

  §1 The doubles that are written plainly.
  §2 The spelling of a double.
  §3 Forms tell doubles apart.
-/
import Scriptlet.Proofs.Decimal.Respelling

namespace Scriptlet.Double

open Decimal (IsShortest)

/-! ## §1 The doubles that are written plainly -/

/-- The double 10^-3 is the first one that is not below the number. -/
theorem thousandth_le_iff (m : Nat) : thousandth.magnitude ≤ m ↔ 1 / 1000 ≤ valueOf m := by
  have pattern : thousandth.magnitude = 0x3F50624DD2F1A9FB + 1 := by decide +kernel
  have above : 1 / 1000 ≤ valueOf (0x3F50624DD2F1A9FB + 1) := by
    have units : 1 * 2 ^ 1074 ≤ unitsOf (0x3F50624DD2F1A9FB + 1) * 1000 := by decide +kernel
    rw [valueOf, div_le_div_iff₀ (by norm_num) (by positivity)]
    exact_mod_cast units
  have below : valueOf 0x3F50624DD2F1A9FB < 1 / 1000 := by
    have units : unitsOf 0x3F50624DD2F1A9FB * 1000 < 1 * 2 ^ 1074 := by decide +kernel
    rw [valueOf, div_lt_div_iff₀ (by positivity) (by norm_num)]
    exact_mod_cast units
  rw [pattern]
  constructor
  · intro le
    exact above.trans (valueOf_le_valueOf.mpr le)
  · intro le
    exact valueOf_lt_valueOf.mp (below.trans_le le)

theorem lt_tenMillion_iff (m : Nat) : m < tenMillion.magnitude ↔ valueOf m < 10 ^ 7 := by
  have exact : valueOf tenMillion.magnitude = 10 ^ 7 := by
    have units : unitsOf tenMillion.magnitude = 10 ^ 7 * 2 ^ 1074 := by decide +kernel
    rw [valueOf, units, Nat.cast_mul, Nat.cast_pow, Nat.cast_pow, Nat.cast_ofNat, Nat.cast_ofNat,
      mul_div_cancel_right₀ _ (by positivity)]
  rw [← exact, valueOf_lt_valueOf]

theorem isPlain_iff (x : Double) : x.isPlain = true ↔
    x.magnitude = 0 ∨ 1 / 1000 ≤ valueOf x.magnitude ∧ valueOf x.magnitude < 10 ^ 7 := by
  simp only [isPlain, isZero, Bool.or_eq_true, Bool.and_eq_true, decide_eq_true_eq, beq_iff_eq,
    thousandth_le_iff, lt_tenMillion_iff]

/-! ## §2 The spelling of a double -/

section Classes

variable {x : Double}

theorem fullForm_of_nan (h : infinite < x.magnitude) : x.fullForm = "NaN".toList := by
  rw [fullForm, isNaN, if_pos (decide_eq_true h)]

theorem fullForm_of_infinite (h : x.magnitude = infinite) :
    x.fullForm = Spelling.signed x.isNegative "Infinity".toList := by
  have noNaN : x.isNaN = false := by simp [isNaN, h]
  have isInf : x.isInfinite = true := by simp [isInfinite, h]
  simp only [fullForm, noNaN, isInf, Bool.false_eq_true, if_false, if_true]
  rfl

theorem fullForm_of_finite (h : x.magnitude < infinite) :
    x.fullForm = Spelling.signed x.isNegative
      (if x.magnitude = 0 then "0.0".toList
      else if x.isPlain then (Numeral.ofMagnitude x.magnitude).positional
      else (Numeral.ofMagnitude x.magnitude).scientific) := by
  have noNaN : x.isNaN = false := by
    simp only [isNaN, decide_eq_false_iff_not]
    omega
  have noInf : x.isInfinite = false := by
    simp only [isInfinite, beq_eq_false_iff_ne]
    omega
  have zero : x.isZero = true ↔ x.magnitude = 0 := by simp [isZero]
  have inspected : x.inspectForm = Spelling.signed x.isNegative
      (if x.magnitude = 0 then "0.0".toList else (Numeral.ofMagnitude x.magnitude).inspected) := by
    simp only [inspectForm, noNaN, noInf, zero, Bool.false_eq_true, if_false]
    split <;> rfl
  simp only [fullForm, noNaN, noInf, Bool.false_eq_true, if_false]
  rw [inspected]
  by_cases none : x.magnitude = 0
  · have plain : x.isPlain = true := by rw [isPlain, zero.mpr none, Bool.true_or]
    rw [if_pos plain, if_pos none, if_pos none]
  · have other : x.isZero = false := Bool.eq_false_iff.mpr (mt zero.mp none)
    rw [if_neg none, if_neg none]
    split
    · next plain =>
      simp only [isPlain, other, Bool.false_or, Bool.and_eq_true, decide_eq_true_eq] at plain
      rw [Numeral.inspected_eq_positional plain.1 plain.2]
    · obtain ⟨ds, spells⟩ := Numeral.exists_spells (Nat.pos_of_ne_zero none) h
      exact Numeral.respelled_inspected spells x.isNegative

/-- A finite double is spelled with its own sign and the digits of its shortest decimal. -/
theorem exists_spelling (h : x.magnitude < infinite) :
    ∃ s : Spelling, x.fullForm = s.text ∧ s.negative = x.isNegative ∧
      (if x.isPlain then s.IsPlain else s.IsScientific) ∧ IsShortest x.magnitude s.size := by
  rw [fullForm_of_finite h]
  rcases Nat.eq_zero_or_pos x.magnitude with zero | pos
  · have plain : x.isPlain = true := x.isPlain_iff.mpr (.inl zero)
    refine ⟨⟨x.isNegative, [0], [0], none⟩, ?_, rfl, ?_, ?_⟩
    · rw [if_pos zero]
      rfl
    · rw [if_pos plain]
      exact ⟨by simp, by simp, rfl⟩
    · have size : Spelling.size ⟨x.isNegative, [0], [0], none⟩ = 0 := by
        have number : digitsNumber ([0] ++ [0]) = 0 := rfl
        rw [Spelling.size, Decimal.value, Spelling.decimal, number, Nat.cast_zero, zero_mul]
      rw [zero, size]
      exact Decimal.isShortest_zero
  · obtain ⟨ds, spells⟩ := Numeral.exists_spells pos h
    have shortest := Decimal.isShortest_shortest pos h
    rw [if_neg pos.ne']
    split
    · obtain ⟨s, form, sign, text, size⟩ := spells.exists_plain x.isNegative
      rw [← size] at shortest
      exact ⟨s, text.symm, sign, form, shortest⟩
    · obtain ⟨s, form, sign, text, size⟩ := spells.exists_scientific x.isNegative
      rw [← size] at shortest
      exact ⟨s, text.symm, sign, form, shortest⟩

/-- The brief form tells the full form. -/
theorem restorePointZero_briefForm (x : Double) : restorePointZero x.briefForm = x.fullForm := by
  rw [briefForm]
  rcases lt_trichotomy x.magnitude infinite with finite | infinite | nan
  · obtain ⟨s, text, -, form, -⟩ := exists_spelling finite
    rw [text]
    refine Spelling.restorePointZero_dropPointZero ?_
    split at form
    · exact .inl form
    · exact .inr form
  · rw [fullForm_of_infinite infinite]
    cases x.isNegative <;> decide
  · rw [fullForm_of_nan nan]
    decide

/-! ## §3 Forms tell doubles apart -/

/-- The finite doubles are those with a point in their form. -/
theorem point_mem_fullForm_iff : '.' ∈ x.fullForm ↔ x.magnitude < infinite := by
  rcases lt_trichotomy x.magnitude infinite with finite | infinite | nan
  · obtain ⟨s, text, -⟩ := exists_spelling finite
    refine ⟨fun _ => finite, fun _ => ?_⟩
    rw [text, Spelling.text, Spelling.signed_append]
    simp
  · have none : ∀ negative, '.' ∉ Spelling.signed negative "Infinity".toList := by decide
    rw [fullForm_of_infinite infinite]
    exact ⟨fun mem => absurd mem (none _), fun finite => absurd infinite finite.ne⟩
  · have none : '.' ∉ "NaN".toList := by decide
    rw [fullForm_of_nan nan]
    exact ⟨fun mem => absurd mem none, fun finite => absurd nan finite.not_gt⟩

theorem isNaN_iff : x.isNaN = true ↔ infinite < x.magnitude := decide_eq_true_iff

end Classes

/-- Two doubles have the same full form only if they are the same or both are NaNs. -/
theorem fullForm_eq_iff (x y : Double) :
    x.fullForm = y.fullForm ↔ x = y ∨ x.isNaN = true ∧ y.isNaN = true := by
  constructor
  · intro same
    have finite : x.magnitude < infinite ↔ y.magnitude < infinite := by
      rw [← point_mem_fullForm_iff, same, point_mem_fullForm_iff]
    rw [isNaN_iff, isNaN_iff]
    rcases lt_trichotomy x.magnitude infinite with lt | eq | gt
    · -- the two spellings are the same, and no number has two nearest doubles
      obtain ⟨s, text, sign, -, shortest⟩ := exists_spelling lt
      obtain ⟨t, text', sign', -, shortest'⟩ := exists_spelling (finite.mp lt)
      obtain rfl : s = t := Spelling.text_injective (text.symm.trans (same.trans text'))
      have magnitude := shortest.reads.unique shortest'.reads
      left
      rw [← x.ofMagnitude_magnitude, ← y.ofMagnitude_magnitude, ← sign, ← sign', magnitude]
    · rcases lt_trichotomy y.magnitude infinite with lt' | eq' | gt'
      · exact absurd (finite.mpr lt') eq.not_lt
      · rw [fullForm_of_infinite eq, fullForm_of_infinite eq'] at same
        obtain ⟨sign, -⟩ := Spelling.signed_inj (by decide) (by decide) same
        left
        rw [← x.ofMagnitude_magnitude, ← y.ofMagnitude_magnitude, sign, eq, eq']
      · rw [fullForm_of_infinite eq, fullForm_of_nan gt'] at same
        cases sign : x.isNegative <;> rw [sign] at same <;> cases same
    · rcases lt_trichotomy y.magnitude infinite with lt' | eq' | gt'
      · exact absurd (finite.mpr lt') gt.not_gt
      · rw [fullForm_of_nan gt, fullForm_of_infinite eq'] at same
        cases sign : y.isNegative <;> rw [sign] at same <;> cases same
      · exact .inr ⟨gt, gt'⟩
  · rintro (rfl | ⟨nan, nan'⟩)
    · rfl
    · rw [fullForm_of_nan (isNaN_iff.mp nan), fullForm_of_nan (isNaN_iff.mp nan')]

/-- The brief forms of two doubles are the same exactly if their full forms are. -/
theorem briefForm_eq_iff (x y : Double) :
    x.briefForm = y.briefForm ↔ x = y ∨ x.isNaN = true ∧ y.isNaN = true := by
  rw [← fullForm_eq_iff]
  constructor
  · intro same
    rw [← restorePointZero_briefForm, same, restorePointZero_briefForm]
  · intro same
    rw [briefForm, same, briefForm]

/-- **The text of a number tells the number.** The full form of a finite double is a spelling with
the sign of the double. For the zeros and from 10^-3 up to but not including 10^7 it has digits
before and behind a point and no power of ten; otherwise it has one digit other than zero before the
point, behind it no zero at the end unless this is the only digit, and a power of ten, and its brief
form is the same. The rational number that it stands for is the shortest that is rounded to the
magnitude of the double, and it is rounded to no other; read as a decimal and given its sign, it is
the double again. Both the full forms and the brief forms tell apart all doubles but the NaNs. -/
theorem forms_tell_doubles :
    (∀ x : Double, x.magnitude < infinite → ∃ s : Spelling,
      x.fullForm = s.text ∧ s.negative = x.isNegative ∧
      (x.magnitude = 0 ∨ 1 / 1000 ≤ valueOf x.magnitude ∧ valueOf x.magnitude < 10 ^ 7 →
        s.IsPlain) ∧
      (¬ (x.magnitude = 0 ∨ 1 / 1000 ≤ valueOf x.magnitude ∧ valueOf x.magnitude < 10 ^ 7) →
        s.IsScientific ∧ x.briefForm = x.fullForm) ∧
      IsShortest x.magnitude s.size ∧ (∀ n, IsNearest s.size n ↔ n = x.magnitude) ∧
      ofMagnitude s.negative s.decimal.toDouble.magnitude = x) ∧
    (∀ x y : Double, x.isNaN = false → y.isNaN = false → x.fullForm = y.fullForm → x = y) ∧
    ∀ x y : Double, x.isNaN = false → y.isNaN = false → x.briefForm = y.briefForm → x = y := by
  refine ⟨fun x finite => ?_, fun x y number _ same => ?_, fun x y number _ same => ?_⟩
  · obtain ⟨s, text, sign, form, shortest⟩ := exists_spelling finite
    refine ⟨s, text, sign, fun plain => ?_, fun other => ?_, shortest, fun n => ?_, ?_⟩
    · rwa [if_pos (x.isPlain_iff.mpr plain)] at form
    · rw [if_neg fun plain => other (x.isPlain_iff.mp plain)] at form
      refine ⟨form, ?_⟩
      rw [briefForm, text, form.dropPointZero_text]
    · refine ⟨fun nearest => nearest.unique shortest.reads, ?_⟩
      rintro rfl
      exact shortest.reads
    · rw [(Decimal.toDouble_eq_iff finite.le).mpr shortest.reads,
        magnitude_ofMagnitude false x.magnitude_lt, sign, x.ofMagnitude_magnitude]
  · refine ((fullForm_eq_iff x y).mp same).resolve_right fun nans => ?_
    rw [number] at nans
    cases nans.1
  · refine ((briefForm_eq_iff x y).mp same).resolve_right fun nans => ?_
    rw [number] at nans
    cases nans.1

/-- The least positive double has one digit and a power of ten, an integer with zeros at its end
keeps only one of them, and the two zeros differ by their sign. -/
theorem forms_tell_doubles_extreme :
    (⟨1⟩ : Double).fullForm = "5.0E-324".toList ∧
    (⟨0x444B1AE4D6E2EF50⟩ : Double).fullForm = "1.0E21".toList ∧
    (∃ s : Spelling, "5.0E-324".toList = s.text ∧ IsShortest 1 s.size ∧
      ofMagnitude s.negative s.decimal.toDouble.magnitude = ⟨1⟩) ∧
    (∃ s : Spelling, "1.0E21".toList = s.text ∧ IsShortest 0x444B1AE4D6E2EF50 s.size) ∧
    (⟨0⟩ : Double).briefForm ≠ (⟨0x8000000000000000⟩ : Double).briefForm := by
  have least : (⟨1⟩ : Double).fullForm = "5.0E-324".toList := by decide +kernel
  have great : (⟨0x444B1AE4D6E2EF50⟩ : Double).fullForm = "1.0E21".toList := by decide +kernel
  obtain ⟨spelled, -, brief⟩ := forms_tell_doubles
  obtain ⟨s, text, -, -, -, shortest, -, back⟩ := spelled ⟨1⟩ (by decide)
  obtain ⟨t, text', -, -, -, shortest', -⟩ := spelled ⟨0x444B1AE4D6E2EF50⟩ (by decide)
  refine ⟨least, great, ⟨s, least ▸ text, shortest, back⟩, ⟨t, great ▸ text', shortest'⟩, ?_⟩
  intro same
  exact absurd (brief _ _ (by decide) (by decide) same) (by decide)

end Scriptlet.Double
