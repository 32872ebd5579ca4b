/-
Scriptlet.Proofs.Decimal.Respelling — digits read off a text for inspection.

A text for inspection pads the digits of a numeral with zeros, behind them up to
the point and one place past it, or in front of them behind the point; or it
gives the digits and their power. Reading such a text gives a decimal with those
zeros and with a power that makes up for them, so that its significant digits are
those of the numeral again (`ofDecimal_inspected`). From 10^-3 up to 10^7 the
text has its point in place (`inspected_eq_positional`).

  §1 Reading digits.
  §2 Numerals read back.
  §3 Where the point is in place.
-/
import Mathlib.Data.List.TakeWhile
import Scriptlet.Proofs.Decimal.Spelling

namespace Scriptlet

/-! ## §1 Reading digits -/

/-- A text is cut where a mark first stands in it, or not at all. -/
theorem cut_at_mark {mark : Char} {front tail : List Char} (none : mark ∉ front)
    (stop : ∀ c ∈ tail.head?, c = mark) :
    (front ++ tail).takeWhile (· != mark) = front ∧
      (front ++ tail).dropWhile (· != mark) = tail := by
  have others : ∀ c ∈ front, (c != mark) = true := fun c mem => by
    rw [bne_iff_ne]
    rintro rfl
    exact none mem
  rw [List.takeWhile_append_of_pos others, List.dropWhile_append_of_pos others]
  cases tail with
  | nil => simp
  | cons c tail => simp [stop c rfl]

theorem not_mem_digitChars {mark : Char} (other : mark.isDigit = false) (ds : List (Fin 10)) :
    mark ∉ digitChars ds := fun mem => by
  rw [isDigit_of_mem_digitChars mem] at other
  cases other

/-- Digits before a point, and digits behind it if there are any. -/
def pointed (whole fraction : List (Fin 10)) : List Char :=
  digitChars whole ++ if fraction = [] then [] else '.' :: digitChars fraction

/-- Reading gives all digits, and the power of ten of the last. -/
theorem Decimal.ofText_pointed (whole fraction : List (Fin 10)) {tail : List Char}
    (stop : ∀ c ∈ tail.head?, c = 'e') :
    ofText (pointed whole fraction ++ tail) =
      ⟨digitsNumber (whole ++ fraction), power (tail.drop 1) - fraction.length⟩ := by
  have noPower : 'e' ∉ pointed whole fraction := by
    have letter : Char.isDigit 'e' = false := by decide
    unfold pointed
    split <;> simp [not_mem_digitChars letter]
  obtain ⟨mantissa, behind⟩ := cut_at_mark noPower stop
  have point : ∀ c ∈ (if fraction = [] then [] else '.' :: digitChars fraction).head?, c = '.' := by
    split <;> simp
  obtain ⟨before, after⟩ := cut_at_mark (not_mem_digitChars (by decide) whole) point
  have dropped : (if fraction = [] then [] else '.' :: digitChars fraction).drop 1 =
      digitChars fraction := by
    split
    · next none => rw [none]; rfl
    · rfl
  have length : (digitChars fraction).length = fraction.length := List.length_map _
  simp only [ofText, mantissa, behind]
  rw [pointed, before, after, dropped, length, ← digitChars_append, number_digitChars]

/-! ## §2 Numerals read back -/

namespace Numeral

variable {n : Numeral} {ds : List (Fin 10)} {q : ℚ}

/-- Zeros on either side of the digits are not significant, and the lead is told by where the point
and the first digit stand. -/
theorem ofDecimal_pointed (h : n.Spells ds q) {whole behind : List (Fin 10)} {tail : List Char}
    (stop : ∀ c ∈ tail.head?, c = 'e') (front back : Nat)
    (padded : whole ++ behind = List.replicate front 0 ++ (ds ++ List.replicate back 0))
    (lead : Decimal.power (tail.drop 1) + whole.length - front - 1 = n.lead) :
    ofDecimal (.ofText (pointed whole behind ++ tail)) = n := by
  have length : whole.length + behind.length = front + (ds.length + back) := by
    have all := congrArg List.length padded
    simpa only [List.length_append, List.length_replicate] using all
  rw [Decimal.ofText_pointed whole behind stop, padded, digitsNumber_zeros_append,
    ofDecimal_padded h.nonempty h.first h.last, ← h.digits]
  have power : Decimal.power (tail.drop 1) - behind.length + (ds.length + back : Nat) - 1 =
      n.lead := by
    omega
  rw [power]

/-- Digits with the point in place behind their first ones, and zeros up to there and one place
past it. -/
theorem exists_placed (ds : List (Fin 10)) (k : Nat) :
    ∃ back, ds.take k ++ List.replicate (k - ds.length) 0 ++ atLeastOne (ds.drop k) =
      ds ++ List.replicate back 0 := by
  rcases Nat.lt_or_ge k ds.length with long | short
  · have more : ds.drop k ≠ [] := mt List.drop_eq_nil_iff.mp (Nat.not_le.mpr long)
    refine ⟨0, ?_⟩
    rw [Nat.sub_eq_zero_of_le long.le, atLeastOne, if_neg more]
    simp
  · refine ⟨k - ds.length + 1, ?_⟩
    rw [List.take_of_length_le short, List.drop_of_length_le short, List.replicate_succ',
      List.append_assoc]
    rfl

theorem ofDecimal_positional (h : n.Spells ds q) : ofDecimal (.ofText n.positional) = n := by
  cases place : n.lead with
  | ofNat k =>
    have text : n.positional = pointed (ds.take (k + 1) ++ List.replicate (k + 1 - ds.length) 0)
        (atLeastOne (ds.drop (k + 1))) ++ [] := by
      have taken : (digitChars ds).take (k + 1) = digitChars (ds.take (k + 1)) := List.map_take.symm
      have dropped : (digitChars ds).drop (k + 1) = digitChars (ds.drop (k + 1)) :=
        List.map_drop.symm
      have length : (digitChars ds).length = ds.length := List.length_map _
      simp only [positional, place, h.digits, taken, dropped, length, fraction_digitChars, pointed,
        atLeastOne_ne_nil, if_false, digitChars_append, digitChars_replicate, List.append_nil]
    obtain ⟨back, placed⟩ := exists_placed ds (k + 1)
    rw [text]
    refine ofDecimal_pointed h (by simp) 0 back placed ?_
    rw [place, List.length_append, List.length_take, List.length_replicate]
    show 0 + _ - _ - 1 = (k : Int)
    omega
  | negSucc k =>
    have text : n.positional = pointed [0] (List.replicate k 0 ++ ds) ++ [] := by
      have more : List.replicate k 0 ++ ds ≠ [] := by simp [h.nonempty]
      simp only [positional, place, h.digits, pointed, more, if_false, digitChars_append,
        digitChars_replicate, List.append_nil]
      rfl
    rw [text]
    refine ofDecimal_pointed h (by simp) (k + 1) 0 ?_ ?_
    · rw [List.replicate_succ, List.replicate_zero, List.append_nil]
      rfl
    · rw [place, Int.negSucc_eq]
      show 0 + (1 : Int) - _ - 1 = _
      push_cast
      ring

theorem ofDecimal_scientificSigned (h : n.Spells ds q) :
    ofDecimal (.ofText n.scientificSigned) = n := by
  obtain ⟨d, rest, rfl⟩ := List.exists_cons_of_ne_nil h.nonempty
  obtain ⟨ps, digits, number, -⟩ := exists_toDigits n.lead.natAbs
  let zeros := List.replicate (2 - (digitChars ps).length) (0 : Fin 10)
  let sign := if n.lead < 0 then '-' else '+'
  have text : n.scientificSigned =
      pointed [d] rest ++ 'e' :: sign :: digitChars (zeros ++ ps) := by
    have behind : (digitChars (d :: rest)).drop 1 = digitChars rest := rfl
    have front : (digitChars (d :: rest)).take 1 = digitChars [d] := rfl
    simp only [scientificSigned, h.digits, digits, behind, front, pointed, zeros, sign,
      digitChars_append, digitChars_replicate]
    cases rest with
    | nil => simp [digitChars]
    | cons e rest => simp [digitChars]
  have power : Decimal.power (sign :: digitChars (zeros ++ ps)) = n.lead := by
    have written : Decimal.number (digitChars (zeros ++ ps)) = n.lead.natAbs := by
      rw [number_digitChars, digitsNumber_zeros_append, number]
    simp only [sign]
    split
    · show -(Decimal.number _ : Int) = _
      omega
    · show (Decimal.number _ : Int) = _
      omega
  rw [text]
  refine ofDecimal_pointed h (by simp) 0 0 (by simp) ?_
  rw [List.drop_succ_cons, List.drop_zero, power]
  simp

/-- **A text for inspection tells its numeral.** -/
theorem ofDecimal_inspected (h : n.Spells ds q) : ofDecimal (.ofText n.inspected) = n := by
  unfold inspected
  split
  · exact ofDecimal_positional h
  · exact ofDecimal_scientificSigned h

/-- It begins with a digit. -/
theorem head?_inspected (h : n.Spells ds q) : n.inspected.head? ≠ some '-' := by
  obtain ⟨d, rest, rfl⟩ := List.exists_cons_of_ne_nil h.nonempty
  have other : ∀ d : Fin 10, Nat.digitChar d ≠ '-' := by decide
  have digits : n.digits = Nat.digitChar d :: digitChars rest := h.digits
  unfold inspected positional scientificSigned
  split
  · split <;> simp [digits, other d]
  · simp [digits, other d]

/-- Respelling moves the point of a text for inspection, and keeps its sign. -/
theorem respelled_inspected (h : n.Spells ds q) (negative : Bool) :
    respelled (Spelling.signed negative n.inspected) = Spelling.signed negative n.scientific := by
  cases negative with
  | true =>
    show '-' :: (ofDecimal (.ofText n.inspected)).scientific = _
    rw [ofDecimal_inspected h]
    rfl
  | false =>
    show respelled n.inspected = n.scientific
    have unsigned := head?_inspected h
    unfold respelled
    split
    · next text => simp [text] at unsigned
    · rw [ofDecimal_inspected h]

/-! ## §3 Where the point is in place -/

/-- The lead of a numeral is that of its number. -/
theorem Spells.bounds (h : n.Spells ds q) : 10 ^ n.lead ≤ q ∧ q < 10 ^ (n.lead + 1) := by
  obtain ⟨pos, digits⟩ := toDigits_digitsNumber h.nonempty h.first
  have count : Decimal.digitCount (digitsNumber ds) = ds.length := by
    rw [Decimal.digitCount, digits, digitChars, List.length_map]
  have low := Decimal.pow_digitCount_le pos
  have high := Decimal.lt_pow_digitCount (digitsNumber ds)
  have some := List.length_pos_iff.mpr h.nonempty
  rw [count] at low high
  have unit : (0 : ℚ) < 10 ^ (n.lead + 1 - ds.length) := by positivity
  have shift (k : Nat) : (10 : ℚ) ^ k * 10 ^ (n.lead + 1 - ds.length) =
      10 ^ (k + (n.lead + 1 - ds.length)) := by
    rw [← zpow_natCast, ← zpow_add₀ (by norm_num)]
  rw [← h.value]
  constructor
  · calc (10 : ℚ) ^ n.lead = 10 ^ (ds.length - 1) * 10 ^ (n.lead + 1 - ds.length) := by
          rw [shift]
          congr 1
          omega
      _ ≤ digitsNumber ds * 10 ^ (n.lead + 1 - ds.length) := by
          gcongr
          exact_mod_cast low
  · calc (digitsNumber ds : ℚ) * 10 ^ (n.lead + 1 - ds.length)
        < 10 ^ ds.length * 10 ^ (n.lead + 1 - ds.length) := by
          gcongr
          exact_mod_cast high
      _ = 10 ^ (n.lead + 1) := by
          rw [shift]
          congr 1
          omega

/-- Doubles from 10^-3 up to 10^7 are inspected with the point in place. -/
theorem inspected_eq_positional {m : Nat} (low : Double.thousandth.magnitude ≤ m)
    (high : m < Double.tenMillion.magnitude) :
    (ofMagnitude m).inspected = (ofMagnitude m).positional := by
  have below : Double.tenMillion.magnitude < Double.infinite := by decide +kernel
  have above : 0 < Double.thousandth.magnitude := by decide +kernel
  have lt := high.trans below
  obtain ⟨ds, spells⟩ := exists_spells (above.trans_le low) lt
  have reads := (Decimal.isShortest_shortest (above.trans_le low) lt).reads
  obtain ⟨least, most⟩ := spells.bounds
  refine if_pos ⟨?_, ?_⟩
  · by_contra! small
    -- what is below 10^-4 is rounded at most to the double of 10^-4
    have little : Double.IsNearest (Decimal.value ⟨1, -4⟩) 0x3F1A36E2EB1C432D :=
      (Decimal.toDouble_eq_iff (by decide)).mp (by decide +kernel)
    have bound : (10 : ℚ) ^ ((ofMagnitude m).lead + 1) ≤ Decimal.value ⟨1, -4⟩ := by
      have exponent : (ofMagnitude m).lead + 1 ≤ -4 := by omega
      rw [Decimal.value, Nat.cast_one, one_mul]
      exact zpow_le_zpow_right₀ (by norm_num) exponent
    have order := reads.mono little (most.le.trans bound)
    have apart : 0x3F1A36E2EB1C432D < Double.thousandth.magnitude := by decide +kernel
    omega
  · by_contra! large
    -- what is at least 10^16 is rounded at least to the double of 10^16
    have great : Double.IsNearest (Decimal.value ⟨1, 16⟩) 0x4341C37937E08000 :=
      (Decimal.toDouble_eq_iff (by decide)).mp (by decide +kernel)
    have bound : Decimal.value ⟨1, 16⟩ ≤ (10 : ℚ) ^ (ofMagnitude m).lead := by
      rw [Decimal.value, Nat.cast_one, one_mul]
      exact zpow_le_zpow_right₀ (by norm_num) large
    have order := great.mono reads (bound.trans least)
    have apart : Double.tenMillion.magnitude < 0x4341C37937E08000 := by decide +kernel
    omega

end Numeral

end Scriptlet
