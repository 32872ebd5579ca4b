/-
Scriptlet.Proofs.Double.Nearest — quotients are rounded to the nearest double.

Below the infinity the magnitudes of doubles are numbered in the order of their
values (`strictMono_unitsOf`), and the infinity counts as the power of two that would
come next. The nearest double to a rational number is then told by distances alone:
no other is nearer, and of two that are equally near it is the one with an even
number (`IsNearest`). There is one for every rational that is not negative
(`isNearest_magnitudeOfRatio`) and no more than one, greater numbers have greater
doubles (`IsNearest.mono`), and the value of a double is rounded to itself.

  §1 Patterns and the values they stand for.
  §2 The nearest double.
  §3 Rounded division.
  §4 Rounded quotients.
-/
import Mathlib.Algebra.Order.Field.Rat
import Mathlib.Algebra.Order.AbsoluteValue.Basic
import Mathlib.Data.Nat.Cast.Order.Field
import Mathlib.Tactic.FieldSimp
import Mathlib.Tactic.Linarith
import Mathlib.Tactic.Positivity
import Mathlib.Tactic.Ring
import Scriptlet.Double.Rounding

namespace Scriptlet.Double

/-! ## §1 Patterns and the values they stand for -/

section Patterns

variable {m : Nat}

theorem toNat_bits_ofMagnitude (negative : Bool) (lt : m < 2 ^ 63) :
    (ofMagnitude negative m).bits.toNat = (if negative then 2 ^ 63 else 0) + m := by
  have bound : (if negative then 2 ^ 63 else 0) + m < 2 ^ 64 := by split <;> omega
  exact UInt64.toNat_ofNat_of_lt' bound

theorem magnitude_ofMagnitude (negative : Bool) (lt : m < 2 ^ 63) :
    (ofMagnitude negative m).magnitude = m := by
  show (ofMagnitude negative m).bits.toNat % 2 ^ 63 = m
  rw [toNat_bits_ofMagnitude negative lt]
  split <;> omega

theorem magnitude_lt (x : Double) : x.magnitude < 2 ^ 63 := Nat.mod_lt _ (by decide)

/-- A double is told by its sign and its magnitude. -/
theorem ofMagnitude_magnitude (x : Double) : ofMagnitude x.isNegative x.magnitude = x := by
  have whole : (if x.isNegative then 2 ^ 63 else 0) + x.magnitude = x.bits.toNat := by
    show (if decide (2 ^ 63 ≤ x.bits.toNat) then 2 ^ 63 else 0) + x.bits.toNat % 2 ^ 63 = _
    have bound := x.bits.toNat_lt
    simp only [decide_eq_true_eq]
    split <;> omega
  have bits := toNat_bits_ofMagnitude x.isNegative x.magnitude_lt
  exact congrArg Double.mk (UInt64.toNat_inj.mp (bits.trans whole))

theorem infinite_lt : infinite < 2 ^ 63 := by decide

end Patterns

/-- Every magnitude has an exponent `s` and a significand `q`, so that its value is `q · 2^s` units.
The significand has 53 bits unless the exponent is the least one. -/
theorem exists_parts (m : Nat) :
    ∃ s q, m = s * 2 ^ 52 + q ∧ q < 2 ^ 53 ∧ (s = 0 ∨ 2 ^ 52 ≤ q) := by
  refine ⟨m / 2 ^ 52 - 1, m - (m / 2 ^ 52 - 1) * 2 ^ 52, ?_, ?_, ?_⟩ <;> omega

/-- A significand may also reach up to the first one with the next exponent. -/
theorem unitsOf_parts {s q : Nat} (le : q ≤ 2 ^ 53) (full : s = 0 ∨ 2 ^ 52 ≤ q) :
    unitsOf (s * 2 ^ 52 + q) = q * 2 ^ s := by
  show (if (s * 2 ^ 52 + q) / 2 ^ 52 = 0 then s * 2 ^ 52 + q
    else (2 ^ 52 + (s * 2 ^ 52 + q) % 2 ^ 52) * 2 ^ ((s * 2 ^ 52 + q) / 2 ^ 52 - 1)) = q * 2 ^ s
  by_cases small : q < 2 ^ 52
  · obtain rfl : s = 0 := by omega
    rw [if_pos (by omega)]
    omega
  rw [if_neg (by omega)]
  by_cases carry : q = 2 ^ 53
  · have quotient : (s * 2 ^ 52 + q) / 2 ^ 52 - 1 = s + 1 := by omega
    have remainder : (s * 2 ^ 52 + q) % 2 ^ 52 = 0 := by omega
    rw [quotient, remainder, carry, pow_succ]
    ring
  · have quotient : (s * 2 ^ 52 + q) / 2 ^ 52 - 1 = s := by omega
    have remainder : 2 ^ 52 + (s * 2 ^ 52 + q) % 2 ^ 52 = q := by omega
    rw [quotient, remainder]

/-- The distance of a double to the next one, in units. -/
def gapOf (m : Nat) : Nat := 2 ^ (m / 2 ^ 52 - 1)

theorem gapOf_parts {s q : Nat} (lt : q < 2 ^ 53) (full : s = 0 ∨ 2 ^ 52 ≤ q) :
    gapOf (s * 2 ^ 52 + q) = 2 ^ s := by
  have exponent : (s * 2 ^ 52 + q) / 2 ^ 52 - 1 = s := by omega
  rw [gapOf, exponent]

theorem unitsOf_succ (m : Nat) : unitsOf (m + 1) = unitsOf m + gapOf m := by
  obtain ⟨s, q, rfl, lt, full⟩ := exists_parts m
  have next := unitsOf_parts (q := q + 1) lt (full.imp_right Nat.le_succ_of_le)
  rw [add_assoc, next, unitsOf_parts (Nat.le_of_lt lt) full, gapOf_parts lt full, Nat.succ_mul]

/-- The magnitudes are ordered as the values they stand for. -/
theorem strictMono_unitsOf : StrictMono unitsOf := by
  refine strictMono_nat_of_lt_succ fun m => ?_
  rw [unitsOf_succ]
  exact Nat.lt_add_of_pos_right (Nat.two_pow_pos _)

/-- The exact absolute value of the doubles with a given magnitude. That of the infinities counts
as the power of two that comes behind the finite ones. -/
def valueOf (m : Nat) : ℚ := unitsOf m / 2 ^ 1074

theorem valueOf_lt_valueOf {m n : Nat} : valueOf m < valueOf n ↔ m < n := by
  rw [valueOf, valueOf, div_lt_div_iff_of_pos_right (by positivity), Nat.cast_lt,
    strictMono_unitsOf.lt_iff_lt]

theorem valueOf_le_valueOf {m n : Nat} : valueOf m ≤ valueOf n ↔ m ≤ n := by
  rw [← not_lt, valueOf_lt_valueOf, not_lt]

/-- The distance of a double to the next one. -/
def gap (m : Nat) : ℚ := gapOf m / 2 ^ 1074

theorem valueOf_succ (m : Nat) : valueOf (m + 1) = valueOf m + gap m := by
  rw [valueOf, unitsOf_succ, Nat.cast_add, add_div, valueOf, gap]

theorem valueOf_lt_gap (m : Nat) : valueOf m < 2 ^ 53 * gap m := by
  obtain ⟨s, q, rfl, lt, full⟩ := exists_parts m
  have units : unitsOf (s * 2 ^ 52 + q) < 2 ^ 53 * gapOf (s * 2 ^ 52 + q) := by
    rw [unitsOf_parts lt.le full, gapOf_parts lt full]
    exact Nat.mul_lt_mul_of_pos_right lt (Nat.two_pow_pos s)
  rw [valueOf, gap, ← mul_div_assoc, div_lt_div_iff_of_pos_right (by positivity)]
  exact_mod_cast units

/-- The distance to the next double changes only at the first one with an exponent. -/
theorem gap_pred {m : Nat} (inner : 2 ^ 52 * gap m < valueOf m) : gap (m - 1) = gap m := by
  obtain ⟨s, q, rfl, lt, full⟩ := exists_parts m
  rw [valueOf, gap, ← mul_div_assoc, div_lt_div_iff_of_pos_right (by positivity),
    unitsOf_parts lt.le full, gapOf_parts lt full] at inner
  have inner : 2 ^ 52 * 2 ^ s < q * 2 ^ s := by exact_mod_cast inner
  have greater : 2 ^ 52 < q := Nat.lt_of_mul_lt_mul_right inner
  rw [Nat.add_sub_assoc (by omega), gap, gap, gapOf_parts (by omega) (.inr (by omega)),
    gapOf_parts lt full]

@[simp] theorem valueOf_zero : valueOf 0 = 0 := by
  have none : unitsOf 0 = 0 := rfl
  rw [valueOf, none, Nat.cast_zero, zero_div]

/-! ## §2 The nearest double -/

/-- `IsNearest q m`: of all magnitudes up to that of the infinities, `m` is the one whose value is
nearest to `q`, and where another is equally near, `m` is even. -/
structure IsNearest (q : ℚ) (m : Nat) : Prop where
  le_infinite : m ≤ infinite
  near : ∀ n ≤ infinite, |valueOf m - q| ≤ |valueOf n - q|
  even : ∀ n ≤ infinite, n ≠ m → |valueOf m - q| = |valueOf n - q| → m % 2 = 0

section Distances

variable {a b q : ℚ}

/-- The greater of two numbers is nearer from their middle on. -/
theorem greater_nearer_iff (lt : a < b) : |b - q| ≤ |a - q| ↔ a + b ≤ 2 * q := by
  rw [← sq_le_sq]
  constructor <;> intro h <;> nlinarith

/-- The lesser of two numbers is nearer up to their middle. -/
theorem lesser_nearer_iff (lt : a < b) : |a - q| ≤ |b - q| ↔ 2 * q ≤ a + b := by
  rw [← sq_le_sq]
  constructor <;> intro h <;> nlinarith

end Distances

namespace IsNearest

variable {q q₁ q₂ : ℚ} {m n m₁ m₂ : Nat}

theorem le_of_lt (h : IsNearest q m) (le : n ≤ infinite) (lt : m < n) :
    2 * q ≤ valueOf m + valueOf n :=
  (lesser_nearer_iff (valueOf_lt_valueOf.mpr lt)).mp (h.near n le)

theorem le_of_gt (h : IsNearest q m) (lt : n < m) : valueOf n + valueOf m ≤ 2 * q :=
  (greater_nearer_iff (valueOf_lt_valueOf.mpr lt)).mp (h.near n (lt.le.trans h.le_infinite))

/-- Greater numbers have greater nearest doubles. -/
theorem mono (h₁ : IsNearest q₁ m₁) (h₂ : IsNearest q₂ m₂) (le : q₁ ≤ q₂) : m₁ ≤ m₂ := by
  by_contra! lt
  have below := h₁.le_of_gt lt
  have above := h₂.le_of_lt h₁.le_infinite lt
  -- both numbers are in the middle between the two doubles, between which there is no other
  have same : q₁ = q₂ := by linarith
  subst same
  have next : m₁ = m₂ + 1 := by
    by_contra ne
    have far := h₁.le_of_gt (show m₂ + 1 < m₁ by omega)
    have order := valueOf_lt_valueOf.mpr (show m₂ < m₂ + 1 by omega)
    linarith
  have tie : |valueOf m₁ - q₁| = |valueOf m₂ - q₁| :=
    le_antisymm (h₁.near m₂ h₂.le_infinite) (h₂.near m₁ h₁.le_infinite)
  have even₁ := h₁.even m₂ h₂.le_infinite (by omega) tie
  have even₂ := h₂.even m₁ h₁.le_infinite (by omega) tie.symm
  omega

/-- No number has two nearest doubles. -/
theorem unique (h₁ : IsNearest q m₁) (h₂ : IsNearest q m₂) : m₁ = m₂ :=
  le_antisymm (h₁.mono h₂ le_rfl) (h₂.mono h₁ le_rfl)

/-- A number that is nearer to a double than the middles to those around it is rounded to it. -/
theorem of_middles (le : m ≤ infinite) (lower : ∀ n < m, valueOf n + valueOf m < 2 * q)
    (upper : ∀ n ≤ infinite, m < n → 2 * q < valueOf m + valueOf n) : IsNearest q m := by
  have strict : ∀ n ≤ infinite, n ≠ m → |valueOf m - q| < |valueOf n - q| := by
    intro n bound ne
    rcases Nat.lt_or_gt_of_ne ne with lt | gt
    · have value := valueOf_lt_valueOf.mpr lt
      exact not_le.mp fun near => (lower n lt).not_ge ((lesser_nearer_iff value).mp near)
    · have value := valueOf_lt_valueOf.mpr gt
      exact not_le.mp fun near => (upper n bound gt).not_ge ((greater_nearer_iff value).mp near)
  refine ⟨le, fun n bound => ?_, fun n bound ne tie => absurd tie (strict n bound ne).ne⟩
  by_cases eq : n = m
  · rw [eq]
  · exact (strict n bound eq).le

/-- A number at or above a double is rounded to it if it is less than half the distance to the next
one away. -/
theorem of_above (lt : m < infinite) (le : valueOf m ≤ q)
    (near : 2 * q < 2 * valueOf m + gap m) : IsNearest q m := by
  refine of_middles lt.le (fun n less => ?_) fun n _ greater => ?_
  · have := valueOf_lt_valueOf.mpr less
    linarith
  · have next := valueOf_le_valueOf.mpr (Nat.succ_le_of_lt greater)
    rw [valueOf_succ] at next
    linarith

/-- Below a double that is not the first one with its exponent, the distance to the next one is the
same as above. -/
theorem of_below (le : m ≤ infinite) (inner : 2 ^ 52 * gap m < valueOf m) (below : q ≤ valueOf m)
    (near : 2 * valueOf m - gap m < 2 * q) : IsNearest q m := by
  refine of_middles le (fun n less => ?_) fun n _ greater => ?_
  · have before := valueOf_le_valueOf.mpr (Nat.le_sub_one_of_lt less)
    have step := valueOf_succ (m - 1)
    rw [Nat.sub_add_cancel (Nat.one_le_of_lt less), gap_pred inner] at step
    linarith
  · have := valueOf_lt_valueOf.mpr greater
    linarith

/-- The value of a double is rounded to that double. -/
theorem valueOf (le : m ≤ infinite) : IsNearest (valueOf m) m := by
  refine of_middles le (fun n lt => ?_) fun n _ lt => ?_
  · have := valueOf_lt_valueOf.mpr lt
    linarith
  · have := valueOf_lt_valueOf.mpr lt
    linarith

theorem zero : IsNearest 0 0 := by simpa using valueOf (Nat.zero_le infinite)

end IsNearest

/-! ## §3 Rounded division -/

theorem cast_div_eq (num : Nat) {den : Nat} (pos : 0 < den) :
    (num : ℚ) / den = (num / den : Nat) + (num % den : Nat) / den := by
  have split : ((den * (num / den) + num % den : Nat) : ℚ) = num := by rw [Nat.div_add_mod]
  have den_pos : (0 : ℚ) < den := Nat.cast_pos.mpr pos
  push_cast at split
  field_simp
  linarith

/-- A rounded quotient is at most a half away from the quotient, and where it is a half away, it is
even. -/
theorem roundDiv_near (num : Nat) {den : Nat} (pos : 0 < den) :
    |(roundDiv num den : ℚ) - num / den| ≤ 1 / 2 ∧
      (|(roundDiv num den : ℚ) - num / den| = 1 / 2 → roundDiv num den % 2 = 0) := by
  have den_pos : (0 : ℚ) < den := Nat.cast_pos.mpr pos
  have part : ((num % den : Nat) : ℚ) / den * den = (num % den : Nat) :=
    div_mul_cancel₀ _ den_pos.ne'
  have nonneg : (0 : ℚ) ≤ (num % den : Nat) / den := by positivity
  have small : ((num % den : Nat) : ℚ) < den := Nat.cast_lt.mpr (Nat.mod_lt num pos)
  rw [cast_div_eq num pos]
  unfold roundDiv
  generalize num / den = quotient
  generalize ((num % den : Nat) : ℚ) / den = t at *
  split
  · next less =>
    have less : ((2 * (num % den) : Nat) : ℚ) < den := Nat.cast_lt.mpr (Nat.compare_eq_lt.mp less)
    have half : t < 1 / 2 := by push_cast at less; nlinarith
    rw [sub_add_cancel_left, abs_neg, abs_of_nonneg nonneg]
    exact ⟨half.le, fun eq => absurd eq half.ne⟩
  · next greater =>
    have greater : (den : ℚ) < (2 * (num % den) : Nat) :=
      Nat.cast_lt.mpr (Nat.compare_eq_gt.mp greater)
    have half : 1 / 2 < t := by push_cast at greater; nlinarith
    have less : t < 1 := by nlinarith
    rw [Nat.cast_add, Nat.cast_one, add_sub_add_left_eq_sub, abs_of_pos (sub_pos.mpr less)]
    exact ⟨by linarith, fun eq => by linarith⟩
  · next equal =>
    have equal : ((2 * (num % den) : Nat) : ℚ) = den :=
      congrArg Nat.cast (Nat.compare_eq_eq.mp equal)
    have half : t = 1 / 2 := by push_cast at equal; nlinarith
    rw [Nat.cast_add, add_sub_add_left_eq_sub, half]
    rcases Nat.mod_two_eq_zero_or_one quotient with even | odd
    · rw [even]
      norm_num [even]
    · rw [odd]
      norm_num
      omega

theorem roundDiv_cases (num den : Nat) :
    roundDiv num den = num / den ∨ roundDiv num den = num / den + 1 := by
  unfold roundDiv
  split <;> omega

/-- No natural number is nearer to a quotient than the rounded one. -/
theorem roundDiv_closest (num : Nat) {den : Nat} (pos : 0 < den) (n : Nat) :
    |(roundDiv num den : ℚ) - num / den| ≤ |(n : ℚ) - num / den| := by
  have near := (roundDiv_near num pos).1
  by_cases same : n = roundDiv num den
  · rw [same]
  · have apart : (1 : ℚ) ≤ |(n : ℚ) - roundDiv num den| := by
      have : (n : Int) - roundDiv num den ≠ 0 := by omega
      exact_mod_cast Int.one_le_abs this
    have sum := abs_sub_le (n : ℚ) (num / den) (roundDiv num den)
    rw [abs_sub_comm ((num : ℚ) / den)] at sum
    linarith

/-! ## §4 Rounded quotients -/

section Quotients

variable {s q : Nat} {x : ℚ}

theorem two_pow_le_gapOf (full : s = 0 ∨ 2 ^ 52 ≤ q) : 2 ^ s ≤ gapOf (s * 2 ^ 52 + q) :=
  Nat.pow_le_pow_right two_pos (by omega)

theorem cast_unitsOf_parts (le : q ≤ 2 ^ 53) (full : s = 0 ∨ 2 ^ 52 ≤ q) :
    (unitsOf (s * 2 ^ 52 + q) : ℚ) = q * 2 ^ s := by
  rw [unitsOf_parts le full]
  push_cast
  rfl

/-- A number `x · 2^s` with `x` rounded to `q` is at least half a step away from every magnitude
above that of `q · 2^s`. -/
theorem half_le_above (near : |q - x| ≤ 1 / 2) (le : q ≤ 2 ^ 53) (full : s = 0 ∨ 2 ^ 52 ≤ q)
    {n : Nat} (gt : s * 2 ^ 52 + q < n) : 1 / 2 * (2 : ℚ) ^ s ≤ |unitsOf n - x * 2 ^ s| := by
  have pos : (0 : ℚ) < 2 ^ s := by positivity
  have step := two_pow_le_gapOf full
  have greater : (q + 1 : ℚ) * 2 ^ s ≤ unitsOf n := by
    have above := strictMono_unitsOf.monotone (Nat.succ_le_of_lt gt)
    rw [Nat.succ_eq_add_one, unitsOf_succ, unitsOf_parts le full] at above
    have : (q + 1) * 2 ^ s ≤ unitsOf n := by rw [Nat.succ_mul]; omega
    exact_mod_cast this
  have bound : x * (2 : ℚ) ^ s ≤ (q + 1 / 2) * 2 ^ s :=
    mul_le_mul_of_nonneg_right (by linarith [(abs_le.mp near).1]) pos.le
  rw [abs_of_nonneg (by linarith)]
  linarith

/-- And so it is from every magnitude below, unless it is itself above that of `q · 2^s`; then it is
nearer to this one. -/
theorem half_le_below (near : |q - x| ≤ 1 / 2) (le : q ≤ 2 ^ 53) (full : s = 0 ∨ 2 ^ 52 ≤ q)
    (low : s = 0 ∨ 2 ^ 52 ≤ x) {n : Nat} (lt : n < s * 2 ^ 52 + q) :
    1 / 2 * (2 : ℚ) ^ s ≤ |unitsOf n - x * 2 ^ s| ∨ |q - x| * 2 ^ s < |unitsOf n - x * 2 ^ s| := by
  have pos : (0 : ℚ) < 2 ^ s := by positivity
  by_cases beyond : (q : ℚ) ≤ x
  · right
    have less : (unitsOf n : ℚ) < q * 2 ^ s := by
      rw [← cast_unitsOf_parts le full]
      exact Nat.cast_lt.mpr (strictMono_unitsOf lt)
    have value := mul_le_mul_of_nonneg_right beyond pos.le
    rw [abs_of_nonpos (sub_nonpos.mpr beyond), abs_of_nonpos (by linarith)]
    linarith
  · left
    push Not at beyond
    -- the significand before is one for the same exponent
    obtain ⟨p, rfl⟩ : ∃ p, q = p + 1 := ⟨q - 1, by omega⟩
    have full' : s = 0 ∨ 2 ^ 52 ≤ p := by
      refine low.imp_right fun low => ?_
      have : (2 ^ 52 : ℚ) < (p + 1 : Nat) := low.trans_lt beyond
      exact Nat.lt_succ_iff.mp (by exact_mod_cast this)
    have less : (unitsOf n : ℚ) ≤ p * 2 ^ s := by
      rw [← cast_unitsOf_parts (by omega) full']
      exact Nat.cast_le.mpr (strictMono_unitsOf.monotone (by omega))
    rw [abs_le] at near
    push_cast at near
    have bound : (p + 1 / 2) * (2 : ℚ) ^ s ≤ x * 2 ^ s :=
      mul_le_mul_of_nonneg_right (by linarith) pos.le
    rw [abs_of_nonpos (by linarith)]
    linarith

/-- A number `x · 2^s` with `x` rounded to `q`: where `q` is a significand for the exponent `s`, no
magnitude is nearer to it than that of `q · 2^s`, and this one is even where another is equally
near. -/
theorem units_near (near : |q - x| ≤ 1 / 2) (tie : |q - x| = 1 / 2 → q % 2 = 0)
    (le : q ≤ 2 ^ 53) (full : s = 0 ∨ 2 ^ 52 ≤ q) (low : s = 0 ∨ 2 ^ 52 ≤ x) {n : Nat}
    (ne : n ≠ s * 2 ^ 52 + q) :
    |(unitsOf (s * 2 ^ 52 + q) : ℚ) - x * 2 ^ s| ≤ |unitsOf n - x * 2 ^ s| ∧
      (|(unitsOf (s * 2 ^ 52 + q) : ℚ) - x * 2 ^ s| = |unitsOf n - x * 2 ^ s| →
        (s * 2 ^ 52 + q) % 2 = 0) := by
  have pos : (0 : ℚ) < 2 ^ s := by positivity
  have distance : |(unitsOf (s * 2 ^ 52 + q) : ℚ) - x * 2 ^ s| = |q - x| * 2 ^ s := by
    rw [cast_unitsOf_parts le full, ← sub_mul, abs_mul, abs_of_pos pos]
  have far : 1 / 2 * (2 : ℚ) ^ s ≤ |unitsOf n - x * 2 ^ s| ∨
      |q - x| * 2 ^ s < |unitsOf n - x * 2 ^ s| := by
    rcases Nat.lt_or_gt_of_ne ne with lt | gt
    · exact half_le_below near le full low lt
    · exact .inl (half_le_above near le full gt)
  rw [distance]
  rcases far with far | far
  · have half := mul_le_mul_of_nonneg_right near pos.le
    refine ⟨half.trans far, fun eq => ?_⟩
    have even := tie (mul_right_cancel₀ pos.ne' (le_antisymm half (far.trans eq.ge)))
    omega
  · exact ⟨far.le, fun eq => absurd eq far.ne⟩

end Quotients

/-- The exponent of a quotient leaves a significand of 53 bits, or of less if the exponent is the
least one. -/
theorem significand_bounds (num : Nat) {den : Nat} (pos : 0 < den) :
    (num : ℚ) / (den * 2 ^ (Nat.log2 (num / den) - 52) : Nat) < 2 ^ 53 ∧
      (Nat.log2 (num / den) - 52 = 0 ∨
        2 ^ 52 ≤ (num : ℚ) / (den * 2 ^ (Nat.log2 (num / den) - 52) : Nat)) := by
  generalize shift : Nat.log2 (num / den) - 52 = s
  have den_pos : (0 : ℚ) < (den * 2 ^ s : Nat) := by positivity
  have upper : num / den < 2 ^ (s + 53) := by
    have : num / den < 2 ^ (Nat.log2 (num / den) + 1) := Nat.lt_log2_self
    exact this.trans_le (Nat.pow_le_pow_right two_pos (by omega))
  have lower : s = 0 ∨ 2 ^ (s + 52) ≤ num / den := by
    by_cases zero : s = 0
    · exact .inl zero
    · have exponent : s + 52 = Nat.log2 (num / den) := by omega
      rw [exponent]
      refine .inr (Nat.log2_self_le fun none => zero ?_)
      rw [none] at shift
      exact shift.symm
  constructor
  · rw [div_lt_iff₀ den_pos]
    have := (Nat.div_lt_iff_lt_mul pos).mp upper
    rw [pow_add] at this
    exact_mod_cast this.trans_eq (by ring)
  · refine lower.imp_right fun lower => ?_
    rw [le_div_iff₀ den_pos]
    have := (Nat.le_div_iff_mul_le pos).mp lower
    rw [pow_add] at this
    exact_mod_cast (show _ = _ by ring).trans_le this

theorem roundDiv_le {num den : Nat} (bound : Nat) (pos : 0 < den) (lt : (num : ℚ) / den < bound) :
    roundDiv num den ≤ bound := by
  have near := abs_le.mp (roundDiv_near num pos).1
  have : (roundDiv num den : ℚ) < bound + 1 := by linarith
  exact Nat.lt_succ_iff.mp (by exact_mod_cast this)

theorem le_roundDiv {num den : Nat} (bound : Nat) (pos : 0 < den) (le : bound ≤ (num : ℚ) / den) :
    bound ≤ roundDiv num den := by
  have near := abs_le.mp (roundDiv_near num pos).1
  have : (bound : ℚ) < roundDiv num den + 1 := by linarith
  exact Nat.lt_succ_iff.mp (by exact_mod_cast this)

theorem magnitudeOfRatio_eq (num den : Nat) : magnitudeOfRatio num den =
    min infinite ((Nat.log2 (num * 2 ^ 1074 / den) - 52) * 2 ^ 52 +
      roundDiv (num * 2 ^ 1074) (den * 2 ^ (Nat.log2 (num * 2 ^ 1074 / den) - 52))) := by
  have power : Nat.pow = (· ^ ·) := rfl
  rw [magnitudeOfRatio, power]

/-- A double's distance to a number, counted in units. -/
theorem abs_valueOf_sub (n : Nat) (r : ℚ) :
    |valueOf n - r| = |(unitsOf n : ℚ) - r * 2 ^ 1074| / 2 ^ 1074 := by
  have pos : (0 : ℚ) < 2 ^ 1074 := by positivity
  have split : valueOf n - r = ((unitsOf n : ℚ) - r * 2 ^ 1074) / 2 ^ 1074 := by
    rw [sub_div, mul_div_cancel_right₀ _ pos.ne', valueOf]
  rw [split, abs_div, abs_of_pos pos]

/-- **A quotient is rounded to the nearest double, and from the middle to the even one.** -/
theorem isNearest_magnitudeOfRatio (num : Nat) {den : Nat} (pos : 0 < den) :
    IsNearest (num / den) (magnitudeOfRatio num den) := by
  obtain ⟨upper, lower⟩ := significand_bounds (num * 2 ^ 1074) pos
  rw [magnitudeOfRatio_eq]
  generalize Nat.log2 (num * 2 ^ 1074 / den) - 52 = s at *
  have pos' : 0 < den * 2 ^ s := Nat.mul_pos pos (Nat.two_pow_pos s)
  obtain ⟨near, tie⟩ := roundDiv_near (num * 2 ^ 1074) pos'
  have le := roundDiv_le (2 ^ 53) pos' (upper.trans_eq (by norm_num))
  have full := lower.imp_right fun low =>
    le_roundDiv (2 ^ 52) pos' (le_trans (by norm_num) low)
  have scaled : ((num * 2 ^ 1074 : Nat) : ℚ) / (den * 2 ^ s : Nat) * 2 ^ s =
      num / den * 2 ^ 1074 := by
    rw [Nat.cast_mul, Nat.cast_mul, Nat.cast_pow, Nat.cast_pow, Nat.cast_ofNat]
    generalize (2 : ℚ) ^ 1074 = unit
    field_simp
  generalize roundDiv (num * 2 ^ 1074) (den * 2 ^ s) = q at *
  have nearest (n : Nat) (ne : n ≠ s * 2 ^ 52 + q) :
      |valueOf (s * 2 ^ 52 + q) - num / den| ≤ |valueOf n - num / den| ∧
      (|valueOf (s * 2 ^ 52 + q) - num / den| = |valueOf n - num / den| →
        (s * 2 ^ 52 + q) % 2 = 0) := by
    have unit : (0 : ℚ) < 2 ^ 1074 := by positivity
    have units := units_near near tie le full lower ne
    rw [scaled] at units
    rw [abs_valueOf_sub, abs_valueOf_sub, div_le_div_iff_of_pos_right unit,
      div_left_inj' unit.ne']
    exact units
  generalize s * 2 ^ 52 + q = m at nearest
  by_cases inside : m ≤ infinite
  · rw [min_eq_right inside]
    refine ⟨inside, fun n _ => ?_, fun n _ ne => (nearest n ne).2⟩
    by_cases eq : n = m
    · rw [eq]
    · exact (nearest n eq).1
  · push Not at inside
    rw [min_eq_left inside.le]
    -- beyond the infinity, the number is above all finite doubles
    have overflow := (greater_nearer_iff (valueOf_lt_valueOf.mpr inside)).mp
      (nearest infinite inside.ne).1
    refine .of_middles le_rfl (fun n lt => ?_) fun n le lt => absurd lt le.not_gt
    have below := valueOf_lt_valueOf.mpr lt
    have above := valueOf_lt_valueOf.mpr inside
    linarith

end Scriptlet.Double
