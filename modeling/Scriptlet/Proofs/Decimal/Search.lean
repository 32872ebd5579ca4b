/-
Scriptlet.Proofs.Decimal.Search — the search finds the shortest decimal that reads back.

A decimal reads as a double if this is the nearest one (`toDouble_eq_iff`). Rounding
is monotone, so if any point of a decimal grid reads as a double, then so does one of
the two neighbours of its value on that grid, and the one that is taken is as near as
any (`neighbour?_closest`). A decimal with fewer digits lies on one of the grids that
have been tried before, and seventeen digits are always enough (`isSome_neighbour?_last`).
So what the search finds has as few digits as can be and is, among the decimals with
so many digits, as near to the double as can be (`isShortest_shortest`).

  §1 Decimals and what they read as.
  §2 The power of the first digit.
  §3 The neighbours of a value on a grid.
  §4 Seventeen digits are enough.
  §5 The shortest decimal.
-/
import Mathlib.Algebra.Order.Field.Power
import Scriptlet.Decimal.Shortest
import Scriptlet.Proofs.Double.Nearest

namespace Scriptlet.Decimal

open Double (IsNearest valueOf unitsOf gap infinite ofMagnitude)

/-! ## §1 Decimals and what they read as -/

/-- The number that a decimal stands for. -/
def value (d : Decimal) : ℚ := d.digits * 10 ^ d.exponent

theorem exists_toDouble (d : Decimal) :
    ∃ m, d.toDouble = ofMagnitude false m ∧ IsNearest d.value m := by
  have power : Nat.pow = (· ^ ·) := rfl
  obtain ⟨digits, exponent⟩ := d
  cases exponent with
  | ofNat e =>
    refine ⟨_, rfl, ?_⟩
    have nearest := Double.isNearest_magnitudeOfRatio (digits * 10 ^ e) one_pos
    have same : value ⟨digits, .ofNat e⟩ = (digits * 10 ^ e : Nat) / (1 : Nat) := by
      rw [value, Int.ofNat_eq_natCast, zpow_natCast]
      push_cast
      rw [div_one]
    rw [same, power]
    exact nearest
  | negSucc e =>
    refine ⟨_, rfl, ?_⟩
    have pos : 0 < 10 ^ (e + 1) := by positivity
    have nearest := Double.isNearest_magnitudeOfRatio digits pos
    have same : value ⟨digits, .negSucc e⟩ = digits / (10 ^ (e + 1) : Nat) := by
      rw [value, zpow_negSucc]
      push_cast
      rw [div_eq_mul_inv]
    rw [same, power]
    exact nearest

/-- A decimal reads as a double exactly if this is the nearest one. -/
theorem toDouble_eq_iff {d : Decimal} {m : Nat} (le : m ≤ infinite) :
    d.toDouble = ofMagnitude false m ↔ IsNearest d.value m := by
  obtain ⟨n, eq, nearest⟩ := d.exists_toDouble
  rw [eq]
  constructor
  · intro same
    have lt := Double.infinite_lt
    have magnitudes := congrArg Double.magnitude same
    rw [Double.magnitude_ofMagnitude _ (nearest.le_infinite.trans_lt lt),
      Double.magnitude_ofMagnitude _ (le.trans_lt lt)] at magnitudes
    exact magnitudes ▸ nearest
  · intro other
    rw [nearest.unique other]

/-- What lies between numbers that are rounded to a double is rounded to it. -/
theorem isNearest_of_between {d : Decimal} {m : Nat} {q r : ℚ} (low : IsNearest q m)
    (high : IsNearest r m) (le : q ≤ d.value) (ge : d.value ≤ r) : IsNearest d.value m := by
  obtain ⟨n, -, nearest⟩ := d.exists_toDouble
  obtain rfl : n = m := le_antisymm (nearest.mono high ge) (low.mono nearest le)
  exact nearest

/-! ## §2 The power of the first digit -/

theorem lt_pow_digitCount (n : Nat) : n < 10 ^ digitCount n := by
  have pos : 0 < digitCount n := List.length_pos_iff.mpr Nat.toDigits_ne_nil
  exact (Nat.length_toDigits_le_iff (by decide) pos).mp le_rfl

theorem pow_digitCount_le {n : Nat} (pos : 0 < n) : 10 ^ (digitCount n - 1) ≤ n := by
  by_contra! lt
  have nonempty : 0 < digitCount n := List.length_pos_iff.mpr Nat.toDigits_ne_nil
  rcases Nat.eq_zero_or_pos (digitCount n - 1) with one | more
  · rw [one, pow_zero] at lt
    omega
  · have shorter : digitCount n ≤ digitCount n - 1 :=
      (Nat.length_toDigits_le_iff (by decide) more).mpr lt
    omega

/-- The digits of its whole part tell the size of a quotient. -/
theorem digitCount_div_bounds {num den : Nat} (pos : 0 < den) (le : den ≤ num) :
    (10 : ℚ) ^ ((digitCount (num / den) : Int) - 1) ≤ num / den ∧
      (num : ℚ) / den < 10 ^ (digitCount (num / den) : Int) := by
  have den_pos : (0 : ℚ) < den := Nat.cast_pos.mpr pos
  have nonempty : 1 ≤ digitCount (num / den) := List.length_pos_iff.mpr Nat.toDigits_ne_nil
  have low := pow_digitCount_le (Nat.div_pos le pos)
  have high := lt_pow_digitCount (num / den)
  constructor
  · rw [← Nat.cast_one, ← Nat.cast_sub nonempty, zpow_natCast, le_div_iff₀ den_pos]
    exact_mod_cast (Nat.le_div_iff_mul_le pos).mp low
  · rw [zpow_natCast, div_lt_iff₀ den_pos]
    exact_mod_cast (Nat.div_lt_iff_lt_mul pos).mp high

/-- The leading power of a value is the greatest power of ten that does not exceed it. -/
theorem leadingPower_bounds {units : Nat} (pos : 0 < units) :
    (10 : ℚ) ^ leadingPower units ≤ units / 2 ^ 1074 ∧
      (units : ℚ) / 2 ^ 1074 < 10 ^ (leadingPower units + 1) := by
  have power : Nat.pow = (· ^ ·) := rfl
  have cast : (2 : ℚ) ^ 1074 = (2 ^ 1074 : Nat) := by rw [Nat.cast_pow, Nat.cast_ofNat]
  have unit_pos : 0 < 2 ^ 1074 := by positivity
  have least : 2 ^ 1074 ≤ 10 ^ 324 := by decide +kernel
  rw [leadingPower, power, cast]
  beta_reduce
  generalize 2 ^ 1074 = unit at *
  split
  · next le =>
    rw [sub_add_cancel]
    exact digitCount_div_bounds unit_pos le
  · have le : unit ≤ units * 10 ^ 324 := least.trans (Nat.le_mul_of_pos_left _ pos)
    obtain ⟨low, high⟩ := digitCount_div_bounds unit_pos le
    generalize (digitCount (units * 10 ^ 324 / unit) : Int) = count at low high ⊢
    -- a value moved up 324 places has a leading power that is greater by 324
    have moved : ((units * 10 ^ 324 : Nat) : ℚ) / unit = units / unit * 10 ^ (324 : Int) := by
      rw [Nat.cast_mul, Nat.cast_pow, Nat.cast_ofNat, mul_div_right_comm]
      rfl
    have split (k : Int) : (10 : ℚ) ^ k = 10 ^ (k - 324) * 10 ^ (324 : Int) := by
      rw [← zpow_add₀ (by norm_num), sub_add_cancel]
    have pos : (0 : ℚ) < 10 ^ (324 : Int) := by positivity
    rw [moved, split (count - 1)] at low
    rw [moved, split count] at high
    have low := le_of_mul_le_mul_right low pos
    have high := lt_of_mul_lt_mul_right high pos.le
    rw [show count - 325 = count - 1 - 324 by ring, show count - 1 - 324 + 1 = count - 324 by ring]
    exact ⟨low, high⟩

/-! ## §3 The neighbours of a value on a grid -/

/-- The numerator and the denominator are those of the value divided by the power of ten. -/
theorem overPower_spec (units : Nat) (k : Int) :
    0 < (overPower units k).2 ∧
      ((overPower units k).1 : ℚ) / (overPower units k).2 * 10 ^ k = units / 2 ^ 1074 := by
  have power : Nat.pow = (· ^ ·) := rfl
  cases k with
  | ofNat k =>
    have step : (0 : ℚ) < 10 ^ k := by positivity
    rw [overPower, power]
    refine ⟨by positivity, ?_⟩
    rw [Nat.cast_mul, Nat.cast_pow, Nat.cast_pow, Nat.cast_ofNat, Nat.cast_ofNat,
      Int.ofNat_eq_natCast, zpow_natCast, div_mul_eq_mul_div, mul_div_mul_right _ _ step.ne']
  | negSucc k =>
    have step : (0 : ℚ) < 10 ^ (k + 1) := by positivity
    rw [overPower, power]
    refine ⟨by positivity, ?_⟩
    rw [Nat.cast_mul, Nat.cast_pow, Nat.cast_pow, Nat.cast_ofNat, Nat.cast_ofNat, zpow_negSucc,
      mul_div_right_comm, mul_inv_cancel_right₀ step.ne']

/-- `Closest m k d`: on the grid of `10^k`, the decimal reads as the double with magnitude `m`, and
none of those that do is nearer to it. It is at most one step above the double. -/
structure Closest (m : Nat) (k : Int) (d : Decimal) : Prop where
  exponent : d.exponent = k
  reads : IsNearest d.value m
  closest : ∀ p : Nat, IsNearest (p * 10 ^ k) m →
    |d.value - valueOf m| ≤ |p * 10 ^ k - valueOf m|
  le_succ : d.value ≤ valueOf m + 10 ^ k

section Grid

variable {m : Nat} {k : Int}

/-- The two neighbours of a value: `lower m k` and the next point of the grid. -/
def lower (m : Nat) (k : Int) : Nat :=
  (overPower (unitsOf m) k).1 / (overPower (unitsOf m) k).2

theorem lower_bounds (m : Nat) (k : Int) :
    (lower m k : ℚ) * 10 ^ k ≤ valueOf m ∧ valueOf m < (lower m k + 1 : Nat) * 10 ^ k := by
  obtain ⟨pos, ratio⟩ := overPower_spec (unitsOf m) k
  have step : (0 : ℚ) < 10 ^ k := by positivity
  have den_pos : (0 : ℚ) < (overPower (unitsOf m) k).2 := Nat.cast_pos.mpr pos
  rw [valueOf, ← ratio, mul_le_mul_iff_left₀ step, mul_lt_mul_iff_left₀ step, lower,
    le_div_iff₀ den_pos, div_lt_iff₀ den_pos]
  exact ⟨by exact_mod_cast Nat.div_mul_le_self _ _,
    by exact_mod_cast Nat.lt_mul_of_div_lt (Nat.lt_succ_self _) pos⟩

/-- If a point of a grid reads as a double, so does a neighbour of its value that is as near. -/
theorem exists_neighbour (le : m ≤ infinite) {p : Nat} (reads : IsNearest (p * 10 ^ k) m) :
    ∃ c, (c = lower m k ∨ c = lower m k + 1) ∧ IsNearest (value ⟨c, k⟩) m ∧
      |value ⟨c, k⟩ - valueOf m| ≤ |p * 10 ^ k - valueOf m| := by
  have step : (0 : ℚ) < 10 ^ k := by positivity
  obtain ⟨low, high⟩ := lower_bounds m k
  have exact := IsNearest.valueOf le
  rcases Nat.lt_or_ge (lower m k) p with above | under
  · have bound : ((lower m k + 1 : Nat) : ℚ) * 10 ^ k ≤ p * 10 ^ k :=
      mul_le_mul_of_nonneg_right (Nat.cast_le.mpr above) step.le
    refine ⟨_, .inr rfl, isNearest_of_between exact reads high.le bound, ?_⟩
    rw [value, abs_of_nonneg (by linarith), abs_of_nonneg (by linarith)]
    linarith
  · have bound : (p : ℚ) * 10 ^ k ≤ lower m k * 10 ^ k :=
      mul_le_mul_of_nonneg_right (Nat.cast_le.mpr under) step.le
    refine ⟨_, .inl rfl, isNearest_of_between reads exact bound low, ?_⟩
    rw [value, abs_of_nonpos (by linarith), abs_of_nonpos (by linarith)]
    linarith

/-- The neighbour that is taken is as near as any of the two that read as the double; none is taken
only if neither does. -/
theorem neighbour?_cases (le : m ≤ infinite) :
    (neighbour? m k = none ∧ ∀ c, c = lower m k ∨ c = lower m k + 1 →
      ¬ IsNearest (value ⟨c, k⟩) m) ∨
    ∃ d, neighbour? m k = some d ∧ d.exponent = k ∧
      (d.digits = lower m k ∨ d.digits = lower m k + 1) ∧
      ∀ c, c = lower m k ∨ c = lower m k + 1 → IsNearest (value ⟨c, k⟩) m →
        |d.value - valueOf m| ≤ |value ⟨c, k⟩ - valueOf m| := by
  have reads (d : Decimal) : (d.toDouble == ofMagnitude false m) = true ↔ IsNearest d.value m := by
    rw [beq_iff_eq, toDouble_eq_iff le]
  obtain ⟨pos, ratio⟩ := overPower_spec (unitsOf m) k
  unfold neighbour? lower
  generalize overPower (unitsOf m) k = quotient at *
  obtain ⟨num, den⟩ := quotient
  simp only at pos ratio ⊢
  split
  · next no no' =>
    refine .inl ⟨rfl, ?_⟩
    rintro c (rfl | rfl) near
    · rw [(reads _).mpr near] at no
      cases no
    · rw [(reads _).mpr near] at no'
      cases no'
  · next yes no =>
    refine .inr ⟨_, rfl, rfl, .inl rfl, ?_⟩
    rintro c (rfl | rfl) near
    · exact le_rfl
    · rw [(reads _).mpr near] at no
      cases no
  · next no yes =>
    refine .inr ⟨_, rfl, rfl, .inr rfl, ?_⟩
    rintro c (rfl | rfl) near
    · rw [(reads _).mpr near] at no
      cases no
    · exact le_rfl
  · refine .inr ⟨_, rfl, rfl, Double.roundDiv_cases num den, fun c _ _ => ?_⟩
    have step : (0 : ℚ) < 10 ^ k := by positivity
    have closest := Double.roundDiv_closest num pos c
    rw [valueOf, ← ratio, value, value, ← sub_mul, ← sub_mul, abs_mul, abs_mul]
    exact mul_le_mul_of_nonneg_right closest (abs_nonneg _)

/-- If any point of a grid reads as a double, a neighbour is taken. -/
theorem isSome_neighbour? (le : m ≤ infinite) {p : Nat} (reads : IsNearest (p * 10 ^ k) m) :
    (neighbour? m k).isSome := by
  obtain ⟨c, neighbour, nearest, -⟩ := exists_neighbour le reads
  rcases neighbour?_cases le with ⟨-, no⟩ | ⟨d, found, -⟩
  · exact absurd nearest (no c neighbour)
  · rw [found]
    rfl

/-- The neighbour that is taken is the closest decimal of its grid. -/
theorem neighbour?_closest (le : m ≤ infinite) {d : Decimal} (h : neighbour? m k = some d) :
    Closest m k d := by
  have reads := (toDouble_eq_iff le).mp (toDouble_of_neighbour? h)
  rcases neighbour?_cases (k := k) le with ⟨none, -⟩ | ⟨d', found, exponent, digits, close⟩
  · rw [none] at h
    cases h
  · rw [h] at found
    obtain rfl := Option.some.inj found
    refine ⟨exponent, reads, fun p near => ?_, ?_⟩
    · obtain ⟨c, neighbour, nearest, nearer⟩ := exists_neighbour le near
      exact (close c neighbour nearest).trans nearer
    · have step : (0 : ℚ) < 10 ^ k := by positivity
      have low := (lower_bounds m k).1
      have bound : (d.digits : ℚ) ≤ lower m k + 1 := by
        exact_mod_cast (by omega : d.digits ≤ lower m k + 1)
      have := mul_le_mul_of_nonneg_right bound step.le
      rw [value, exponent]
      linarith

end Grid

/-! ## §4 Seventeen digits are enough -/

section Finite

variable {m : Nat}

theorem unitsOf_pos (pos : 0 < m) : 0 < unitsOf m := Double.strictMono_unitsOf pos

/-- Of the neighbours on the grid of seventeen digits, one reads as the double. The steps of that
grid are smaller than the distance to the next double, so the nearer neighbour is less than half
this distance away. Where the double below is only half as far away, the steps are smaller still,
and the neighbour above is near enough. -/
theorem isSome_neighbour?_last (pos : 0 < m) (lt : m < infinite) :
    (neighbour? m (leadingPower (unitsOf m) - 16)).isSome := by
  have lead : (10 : ℚ) ^ leadingPower (unitsOf m) ≤ valueOf m :=
    (leadingPower_bounds (unitsOf_pos pos)).1
  obtain ⟨k, split⟩ : ∃ k, leadingPower (unitsOf m) = k + 16 := ⟨_, (sub_add_cancel _ _).symm⟩
  rw [split, add_sub_cancel_right]
  rw [split, zpow_add₀ (by norm_num)] at lead
  have size := Double.valueOf_lt_gap m
  obtain ⟨low, high⟩ := lower_bounds m k
  push_cast at high
  have step : (0 : ℚ) < 10 ^ k := by positivity
  norm_num at lead size
  by_cases fine : 2 * 10 ^ k < gap m
  · refine isSome_neighbour? (p := lower m k + 1) lt.le (.of_above lt ?_ ?_) <;>
      push_cast <;> linarith
  · push Not at fine
    have inner : 2 ^ 52 * gap m < valueOf m := by
      norm_num
      linarith
    by_cases under : 2 * (valueOf m - lower m k * 10 ^ k) ≤ 10 ^ k
    · exact isSome_neighbour? lt.le (.of_below lt.le inner low (by linarith))
    · refine isSome_neighbour? (p := lower m k + 1) lt.le (.of_above lt ?_ ?_) <;>
        push_cast <;> linarith

/-! ## §5 The shortest decimal -/

/-- A number that is written with `n` digits or less, zeros at either end not counted. -/
def Fits (n : Nat) (q : ℚ) : Prop := ∃ (c : Nat) (k : Int), c < 10 ^ n ∧ q = c * 10 ^ k

/-- `IsShortest m q`: the number is rounded to the double with magnitude `m`. Of all numbers that
are, none is written with fewer digits, and none that is written with as many is nearer to the
double. -/
structure IsShortest (m : Nat) (q : ℚ) : Prop where
  reads : IsNearest q m
  fewest : ∃ n, Fits n q ∧ (∀ r n', IsNearest r m → Fits n' r → n ≤ n') ∧
    ∀ r, IsNearest r m → Fits n r → |q - valueOf m| ≤ |r - valueOf m|

/-- What the search finds is a neighbour on one of the grids, and on those before it there was
none. -/
theorem exists_neighbour?_shortest (pos : 0 < m) (lt : m < infinite) :
    ∃ n : Nat, neighbour? m (leadingPower (unitsOf m) - n) = some (shortest m) ∧
      ∀ n' < n, neighbour? m (leadingPower (unitsOf m) - (n' : Nat)) = none := by
  have last := isSome_neighbour?_last pos lt
  simp only [shortest]
  generalize leadingPower (unitsOf m) = lead at *
  cases found : (List.range 17).findSome? fun n : Nat => neighbour? m (lead - n) with
  | none =>
    have missing := List.findSome?_eq_none_iff.mp found 16 (by decide)
    rw [show lead - 16 = lead - (16 : Nat) from rfl, missing] at last
    cases last
  | some d =>
    obtain ⟨before, n, after, split, here, missing⟩ := List.findSome?_eq_some_iff.mp found
    refine ⟨n, here, fun n' less => missing n' ?_⟩
    -- the grids are tried in order, so those with fewer digits are among those before
    have order : (before ++ n :: after).Pairwise (· < ·) := split ▸ List.pairwise_lt_range
    have mem : n' ∈ before ++ n :: after := by
      have : n < 17 := List.mem_range.mp (split ▸ by simp)
      rw [← split, List.mem_range]
      omega
    rw [List.pairwise_append, List.pairwise_cons] at order
    rcases List.mem_append.mp mem with mem | mem
    · exact mem
    · rcases List.mem_cons.mp mem with rfl | mem
      · exact absurd less (lt_irrefl _)
      · exact absurd (order.2.1.1 n' mem) less.le.not_gt

/-- A number with few digits that is rounded to a double lies on the grid with as many digits, or a
power of ten does that is nearer. -/
theorem exists_on_grid (pos : 0 < m) (le : m ≤ infinite) {q : ℚ} {n : Nat} (reads : IsNearest q m)
    (fits : Fits (n + 1) q) :
    ∃ p : Nat, IsNearest (p * 10 ^ (leadingPower (unitsOf m) - n)) m ∧
      |p * 10 ^ (leadingPower (unitsOf m) - n) - valueOf m| ≤ |q - valueOf m| := by
  obtain ⟨c, j, few, rfl⟩ := fits
  have lead : (10 : ℚ) ^ leadingPower (unitsOf m) ≤ valueOf m :=
    (leadingPower_bounds (unitsOf_pos pos)).1
  generalize leadingPower (unitsOf m) = top at *
  by_cases coarse : top - n ≤ j
  · obtain ⟨e, rfl⟩ := Int.le.dest coarse
    have same : ((c * 10 ^ e : Nat) : ℚ) * 10 ^ (top - n) = c * 10 ^ (top - n + e) := by
      rw [zpow_add₀ (by norm_num), zpow_natCast]
      push_cast
      ring
    exact ⟨c * 10 ^ e, by rw [same]; exact reads, by rw [same]⟩
  · push Not at coarse
    have same : ((10 ^ n : Nat) : ℚ) * 10 ^ (top - n) = 10 ^ top := by
      push_cast
      rw [← zpow_natCast, ← zpow_add₀ (by norm_num), add_sub_cancel]
    have less : (c : ℚ) * 10 ^ j ≤ 10 ^ top :=
      calc (c : ℚ) * 10 ^ j ≤ (10 ^ (n + 1) : Nat) * 10 ^ j := by gcongr
        _ = 10 ^ (n + 1 + j) := by
          push_cast
          rw [← zpow_natCast, ← zpow_add₀ (by norm_num)]
          push_cast
          rfl
        _ ≤ 10 ^ top := zpow_le_zpow_right₀ (by norm_num) (by omega)
    have between : IsNearest (value ⟨10 ^ n, top - n⟩) m :=
      isNearest_of_between reads (.valueOf le) (less.trans_eq same.symm) (same.trans_le lead)
    refine ⟨10 ^ n, between, ?_⟩
    rw [same, abs_of_nonpos (by linarith), abs_of_nonpos (by linarith)]
    linarith

/-- The closest decimal on a grid has as many digits as the grid. -/
theorem Closest.fits {d : Decimal} {n : Nat} (pos : 0 < m)
    (h : Closest m (leadingPower (unitsOf m) - n) d) : Fits (n + 1) d.value := by
  have high : valueOf m < 10 ^ (leadingPower (unitsOf m) + 1) :=
    (leadingPower_bounds (unitsOf_pos pos)).2
  have bound := h.le_succ
  rw [value, h.exponent] at bound ⊢
  generalize leadingPower (unitsOf m) = top at *
  have step : (0 : ℚ) < 10 ^ (top - n) := by positivity
  have whole : (10 : ℚ) ^ (top + 1) = (10 ^ (n + 1) : Nat) * 10 ^ (top - n) := by
    push_cast
    rw [← zpow_natCast, ← zpow_add₀ (by norm_num)]
    congr 1
    push_cast
    ring
  have less : (d.digits : ℚ) < (10 ^ (n + 1) : Nat) + 1 := by
    rw [← mul_lt_mul_iff_left₀ step]
    linarith
  have less : d.digits < 10 ^ (n + 1) + 1 := by exact_mod_cast less
  rcases Nat.lt_or_ge d.digits (10 ^ (n + 1)) with few | many
  · exact ⟨_, _, few, rfl⟩
  · -- it is the power of ten above the value, for which one digit is enough
    have power : d.digits = 10 ^ (n + 1) := by omega
    exact ⟨1, top + 1, Nat.one_lt_pow (by omega) (by decide), by rw [power, whole]; simp⟩

/-- **What the search finds is the shortest decimal.** -/
theorem isShortest_shortest (pos : 0 < m) (lt : m < infinite) :
    IsShortest m (shortest m).value := by
  obtain ⟨n, found, missing⟩ := exists_neighbour?_shortest pos lt
  have closest := neighbour?_closest lt.le found
  refine ⟨closest.reads, n + 1, closest.fits pos, fun r n' reads fits => ?_,
    fun r reads fits => ?_⟩
  · cases n' with
    | zero =>
      obtain ⟨c, k, few, rfl⟩ := fits
      obtain rfl : c = 0 := by omega
      rw [Nat.cast_zero, zero_mul] at reads
      exact absurd (reads.unique .zero) pos.ne'
    | succ n' =>
      by_contra! less
      obtain ⟨p, near, -⟩ := exists_on_grid pos lt.le reads fits
      have some := isSome_neighbour? lt.le near
      rw [missing n' (by omega)] at some
      cases some
  · obtain ⟨p, near, nearer⟩ := exists_on_grid pos lt.le reads fits
    exact (closest.closest p near).trans nearer

/-- Zero has the shortest decimal of all. -/
theorem isShortest_zero : IsShortest 0 0 := by
  refine ⟨.zero, 0, ⟨0, 0, by decide, by simp⟩, fun _ _ _ _ => Nat.zero_le _, fun r _ _ => ?_⟩
  rw [Double.valueOf_zero, sub_zero, abs_zero]
  exact abs_nonneg _

end Finite

end Scriptlet.Decimal
