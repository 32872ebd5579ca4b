/-
Scriptlet.Proofs.Decimal.Spelling — how numerals are spelled, and what a spelling
stands for.

A spelling has a sign, digits before and behind a point and, perhaps, a power of ten
behind an `E`. Its text tells all of it (`text_injective`), and the rational number
that it stands for is told by its digits alone (`size`). A numeral is spelled in two
ways, with its point in place or behind the first digit, and stands for the same
number in both (`exists_plain`, `exists_scientific`). Of a text without a power a
final `.0` can be left out and put back again, and no text with a power has one
(`restorePointZero_dropPointZero`).

  §1 Digits.
  §2 Spellings.
  §3 The digits of a numeral.
  §4 The spellings of a numeral.
  §5 Texts without a final `.0`.
-/
import Mathlib.Data.Nat.Digits.Defs
import Scriptlet.Proofs.Decimal.Search
import Scriptlet.Decimal.Numeral

namespace Scriptlet

/-! ## §1 Digits -/

/-- Decimal digits as characters. -/
def digitChars (ds : List (Fin 10)) : List Char := ds.map fun d : Fin 10 => Nat.digitChar d

/-- The natural number that decimal digits spell. -/
def digitsNumber (ds : List (Fin 10)) : Nat := Nat.ofDigits 10 (ds.map Fin.val).reverse

theorem digitChar_injective : ∀ d e : Fin 10, Nat.digitChar d = Nat.digitChar e → d = e := by
  decide

theorem isDigit_digitChar : ∀ d : Fin 10, (Nat.digitChar d).isDigit = true := by decide

theorem digitChars_append (ds es : List (Fin 10)) :
    digitChars (ds ++ es) = digitChars ds ++ digitChars es :=
  List.map_append

theorem digitChars_replicate (k : Nat) :
    digitChars (List.replicate k 0) = List.replicate k '0' :=
  List.map_replicate

theorem isDigit_of_mem_digitChars {ds : List (Fin 10)} {c : Char} (h : c ∈ digitChars ds) :
    c.isDigit = true := by
  obtain ⟨d, -, rfl⟩ := List.mem_map.mp h
  exact isDigit_digitChar d

theorem digitsNumber_concat (ds : List (Fin 10)) (d : Fin 10) :
    digitsNumber (ds ++ [d]) = 10 * digitsNumber ds + d := by
  simp [digitsNumber, Nat.ofDigits_cons, add_comm]

theorem toNat_digitChar : ∀ d : Fin 10, (Nat.digitChar d).toNat - '0'.toNat = d := by decide

/-- Digits read from the left spell the number whose last digit counts one. -/
theorem number_digitChars (ds : List (Fin 10)) :
    Decimal.number (digitChars ds) = digitsNumber ds := by
  induction ds using List.reverseRecOn with
  | nil => rfl
  | append_singleton ds d ih =>
    rw [digitsNumber_concat, ← ih, digitChars_append, Decimal.number, List.foldl_append]
    exact congrArg (10 * Decimal.number (digitChars ds) + ·) (toNat_digitChar d)

theorem digitsNumber_zeros (ds : List (Fin 10)) (n : Nat) :
    digitsNumber (ds ++ List.replicate n 0) = digitsNumber ds * 10 ^ n := by
  induction n with
  | zero => simp
  | succ n ih =>
    rw [List.replicate_succ', ← List.append_assoc, digitsNumber_concat, ih, pow_succ, Fin.val_zero]
    ring

theorem digitsNumber_zeros_append (n : Nat) (ds : List (Fin 10)) :
    digitsNumber (List.replicate n 0 ++ ds) = digitsNumber ds := by
  induction ds using List.reverseRecOn with
  | nil =>
    have zero : digitsNumber [] = 0 := rfl
    rw [List.append_nil, ← List.nil_append (List.replicate n 0), digitsNumber_zeros, zero, zero_mul]
  | append_singleton ds d ih =>
    rw [← List.append_assoc, digitsNumber_concat, ih, digitsNumber_concat]

/-- Digits in front of something else are told apart from it. -/
theorem digitChars_append_inj {ds es : List (Fin 10)} {r r' : List Char}
    (stop : ∀ c ∈ r.head?, c.isDigit = false) (stop' : ∀ c ∈ r'.head?, c.isDigit = false)
    (h : digitChars ds ++ r = digitChars es ++ r') : ds = es ∧ r = r' := by
  induction ds generalizing es with
  | nil =>
    cases es with
    | nil => exact ⟨rfl, h⟩
    | cons e es =>
      have digit := stop (Nat.digitChar e) (by rw [show r = _ from h]; rfl)
      rw [isDigit_digitChar e] at digit
      cases digit
  | cons d ds ih =>
    cases es with
    | nil =>
      have digit := stop' (Nat.digitChar d) (by rw [← show _ = r' from h]; rfl)
      rw [isDigit_digitChar d] at digit
      cases digit
    | cons e es =>
      obtain ⟨first, others⟩ := List.cons.inj h
      obtain ⟨rfl, rest⟩ := ih others
      exact ⟨by rw [digitChar_injective d e first], rest⟩

/-- The digits of a natural number spell it, and a positive one does not begin with a zero. -/
theorem exists_toDigits (n : Nat) :
    ∃ ds, Nat.toDigits 10 n = digitChars ds ∧ digitsNumber ds = n ∧ ds ≠ [] ∧
      (0 < n → ds.head? ≠ some 0) := by
  induction n using Nat.strongRecOn with
  | ind n ih =>
    by_cases small : n < 10
    · refine ⟨[⟨n, small⟩], Nat.toDigits_of_lt_base small, by simp [digitsNumber], by simp, ?_⟩
      intro pos zero
      have : n = 0 := congrArg Fin.val (Option.some.inj zero)
      omega
    · obtain ⟨ds, text, number, nonempty, leading⟩ := ih (n / 10) (by omega)
      refine ⟨ds ++ [⟨n % 10, Nat.mod_lt n (by decide)⟩], ?_, ?_, by simp, fun _ => ?_⟩
      · rw [Nat.toDigits_of_base_le (by decide) (by omega), text, digitChars_append]
        rfl
      · rw [digitsNumber_concat, number]
        exact Nat.div_add_mod n 10
      · rw [List.head?_append_of_ne_nil _ nonempty]
        exact leading (by omega)

/-- Digits that do not begin with a zero are the digits of their number. -/
theorem toDigits_digitsNumber {ds : List (Fin 10)} (nonempty : ds ≠ [])
    (first : ds.head? ≠ some 0) :
    0 < digitsNumber ds ∧ Nat.toDigits 10 (digitsNumber ds) = digitChars ds := by
  induction ds using List.reverseRecOn with
  | nil => exact absurd rfl nonempty
  | append_singleton ds d ih =>
    rw [digitsNumber_concat, digitChars_append]
    rcases List.eq_nil_or_concat' ds with rfl | ⟨front, last, rfl⟩
    · have other : d ≠ 0 := fun zero => first (congrArg some zero)
      refine ⟨Nat.add_pos_right _ (Fin.pos_iff_ne_zero.mpr other), ?_⟩
      rw [show digitsNumber [] = 0 from rfl, Nat.mul_zero, Nat.zero_add,
        Nat.toDigits_of_lt_base d.isLt]
      rfl
    · rw [List.head?_append_of_ne_nil _ (by simp)] at first
      obtain ⟨pos, digits⟩ := ih (by simp) first
      have below := d.isLt
      refine ⟨by omega, ?_⟩
      rw [Nat.toDigits_of_base_le (by decide) (by omega), Nat.mul_add_div (by decide),
        Nat.div_eq_of_lt below, Nat.add_zero, digits, Nat.mul_add_mod, Nat.mod_eq_of_lt below]
      rfl

/-! ## §2 Spellings -/

/-- A number as it is spelled. -/
structure Spelling where
  /-- Is there a minus in front? -/
  negative : Bool
  /-- The digits before the point. -/
  whole : List (Fin 10)
  /-- The digits behind the point. -/
  fraction : List (Fin 10)
  /-- The power of ten, if there is one: whether it has a minus, and its digits. -/
  power : Option (Bool × List (Fin 10))
deriving DecidableEq

namespace Spelling

/-- A minus, if there is one, and what stands behind it. -/
def signed (negative : Bool) (body : List Char) : List Char :=
  if negative then '-' :: body else body

/-- The power of ten behind an `E`. -/
def powerText : Option (Bool × List (Fin 10)) → List Char
  | none => []
  | some (negative, ds) => 'E' :: signed negative (digitChars ds)

/-- The text of a spelling. -/
def text (s : Spelling) : List Char :=
  signed s.negative (digitChars s.whole ++ '.' :: (digitChars s.fraction ++ powerText s.power))

/-- The power of ten of a spelling. -/
def exponent (s : Spelling) : Int :=
  match s.power with
  | none => 0
  | some (negative, ds) => if negative then -digitsNumber ds else digitsNumber ds

/-- The decimal that is spelled, its sign left out. -/
def decimal (s : Spelling) : Decimal :=
  ⟨digitsNumber (s.whole ++ s.fraction), s.exponent - s.fraction.length⟩

/-- The rational number that a spelling stands for, its sign left out. -/
def size (s : Spelling) : ℚ := s.decimal.value

/-- Digits, a point, and digits. -/
structure IsPlain (s : Spelling) : Prop where
  whole : s.whole ≠ []
  fraction : s.fraction ≠ []
  power : s.power = none

/-- One digit other than zero, a point, digits of which the last is a zero only if it is the only
one, and a power of ten that does not begin with a zero unless it is zero. -/
structure IsScientific (s : Spelling) : Prop where
  whole : ∃ d, s.whole = [d] ∧ d ≠ 0
  fraction : s.fraction ≠ [] ∧ (s.fraction.getLast? = some 0 → s.fraction = [0])
  power : ∃ negative ds, s.power = some (negative, ds) ∧ ds ≠ [] ∧
    (ds.head? = some 0 → ds = [0] ∧ negative = false)

theorem signed_inj {negative negative' : Bool} {body body' : List Char}
    (unsigned : '-' ∉ body.head?) (unsigned' : '-' ∉ body'.head?)
    (h : signed negative body = signed negative' body') : negative = negative' ∧ body = body' := by
  match negative, negative' with
  | false, false => exact ⟨rfl, h⟩
  | true, true => exact ⟨rfl, (List.cons.inj h).2⟩
  | true, false => exact absurd (by rw [← show _ = body' from h]; rfl) unsigned'
  | false, true => exact absurd (by rw [show body = _ from h]; rfl) unsigned

theorem minus_not_mem_head?_digitChars {ds : List (Fin 10)} {r : List Char}
    (unsigned : '-' ∉ r.head?) : '-' ∉ (digitChars ds ++ r).head? := by
  cases ds with
  | nil => exact unsigned
  | cons d ds =>
    have other : ∀ d : Fin 10, Nat.digitChar d ≠ '-' := by decide
    simp [digitChars, other d]

theorem powerText_injective {p p' : Option (Bool × List (Fin 10))}
    (h : powerText p = powerText p') : p = p' := by
  match p, p' with
  | none, none => rfl
  | none, some (_, _) => cases h
  | some (_, _), none => cases h
  | some (negative, ds), some (negative', es) =>
    have h := (List.cons.inj h).2
    rw [← List.append_nil (digitChars ds), ← List.append_nil (digitChars es)] at h
    obtain ⟨rfl, same⟩ := signed_inj (minus_not_mem_head?_digitChars (by simp))
      (minus_not_mem_head?_digitChars (by simp)) h
    obtain ⟨rfl, -⟩ := digitChars_append_inj (by simp) (by simp) same
    rfl

theorem head?_powerText (p : Option (Bool × List (Fin 10))) :
    ∀ c ∈ (powerText p).head?, c.isDigit = false := by
  cases p with
  | none => simp [powerText]
  | some power =>
    have letter : Char.isDigit 'E' = false := by decide
    simp [powerText, letter]

/-- The text of a spelling tells all of it. -/
theorem text_injective {s t : Spelling} (h : s.text = t.text) : s = t := by
  have point : ∀ r : List Char, ∀ c ∈ ('.' :: r).head?, c.isDigit = false := by
    have none : Char.isDigit '.' = false := by decide
    simp [none]
  obtain ⟨sign, body⟩ := signed_inj (minus_not_mem_head?_digitChars (by simp))
    (minus_not_mem_head?_digitChars (by simp)) h
  obtain ⟨whole, behind⟩ := digitChars_append_inj (point _) (point _) body
  obtain ⟨fraction, power⟩ := digitChars_append_inj (head?_powerText _) (head?_powerText _)
    (List.cons.inj behind).2
  obtain ⟨negative, w, f, p⟩ := s
  obtain ⟨negative', w', f', p'⟩ := t
  simp_all only
  rw [powerText_injective power]

end Spelling

/-! ## §3 The digits of a numeral -/

variable {ds : List (Fin 10)}

/-- Digits are significant ones with zeros behind them. -/
theorem exists_padded (all : List (Fin 10)) :
    ∃ ds k, all = ds ++ List.replicate k 0 ∧ ds.getLast? ≠ some 0 := by
  induction all using List.reverseRecOn with
  | nil => exact ⟨[], 0, rfl, by simp⟩
  | append_singleton all d ih =>
    by_cases isZero : d = 0
    · obtain ⟨ds, k, rfl, last⟩ := ih
      refine ⟨ds, k + 1, ?_, last⟩
      rw [isZero, List.replicate_succ', List.append_assoc]
    · exact ⟨all ++ [d], 0, by simp, by simpa using isZero⟩

/-- Stripping takes the zeros behind digits that do not end in one, and nothing else. -/
theorem stripped_padded (last : ds.getLast? ≠ some 0) (k : Nat) :
    ((digitChars (ds ++ List.replicate k 0)).reverse.dropWhile (· == '0')).reverse =
      digitChars ds := by
  have zero : ∀ d : Fin 10, (Nat.digitChar d == '0') = true → d = 0 := by decide
  have zeros : ∀ c ∈ List.replicate k '0', (c == '0') = true := by simp
  have ends : (digitChars ds).reverse.dropWhile (· == '0') = (digitChars ds).reverse := by
    rcases List.eq_nil_or_concat' ds with rfl | ⟨front, d, rfl⟩
    · rfl
    · have other : ¬ (Nat.digitChar d == '0') = true := fun isZero =>
        last (by rw [List.getLast?_concat, zero d isZero])
      rw [digitChars_append, List.reverse_append]
      exact List.dropWhile_cons_of_neg other
  rw [digitChars_append, digitChars_replicate, List.reverse_append, List.reverse_replicate,
    List.dropWhile_append_of_pos zeros, ends, List.reverse_reverse]

namespace Numeral

open Decimal (shortest isShortest_shortest)

/-- **Padding does not matter.** A decimal has the same digits and the same lead however many zeros
stand behind the digits. -/
theorem ofDecimal_padded (nonempty : ds ≠ []) (first : ds.head? ≠ some 0)
    (last : ds.getLast? ≠ some 0) (k : Nat) (exponent : Int) :
    ofDecimal ⟨digitsNumber (ds ++ List.replicate k 0), exponent⟩ =
      ⟨digitChars ds, exponent + (ds.length + k : Nat) - 1⟩ := by
  have begins : (ds ++ List.replicate k 0).head? ≠ some 0 := by
    rwa [List.head?_append_of_ne_nil _ nonempty]
  obtain ⟨-, all⟩ := toDigits_digitsNumber (List.append_ne_nil_of_left_ne_nil nonempty _) begins
  have length : (digitChars (ds ++ List.replicate k 0)).length = ds.length + k := by
    rw [digitChars, List.length_map, List.length_append, List.length_replicate]
  simp only [ofDecimal, all, stripped_padded last, length]

/-- `n.Spells ds q`: the numeral has the digits `ds`, of which neither the first nor the last is a
zero, and stands for the number `q`. -/
structure Spells (n : Numeral) (ds : List (Fin 10)) (q : ℚ) : Prop where
  digits : n.digits = digitChars ds
  nonempty : ds ≠ []
  first : ds.head? ≠ some 0
  last : ds.getLast? ≠ some 0
  value : digitsNumber ds * 10 ^ (n.lead + 1 - ds.length) = q

/-- The numeral of a double stands for its shortest decimal. -/
theorem exists_spells {m : Nat} (pos : 0 < m) (lt : m < Double.infinite) :
    ∃ ds, (ofMagnitude m).Spells ds (shortest m).value := by
  have reads := (isShortest_shortest pos lt).reads
  have positive : 0 < (shortest m).digits := by
    by_contra! none
    have zero : (shortest m).value = 0 := by simp [Decimal.value, Nat.le_zero.mp none]
    rw [zero] at reads
    exact pos.ne' (reads.unique .zero)
  obtain ⟨all, -, number, -, leading⟩ := exists_toDigits (shortest m).digits
  obtain ⟨ds, k, rfl, last⟩ := exists_padded all
  have nonempty : ds ≠ [] := by
    rintro rfl
    rw [digitsNumber_zeros, show digitsNumber [] = 0 from rfl, zero_mul] at number
    omega
  have first : ds.head? ≠ some 0 := by
    rw [← List.head?_append_of_ne_nil _ nonempty]
    exact leading positive
  have numeral : ofMagnitude m =
      ⟨digitChars ds, (shortest m).exponent + (ds.length + k : Nat) - 1⟩ := by
    rw [ofMagnitude, ← ofDecimal_padded nonempty first last, number]
  refine ⟨ds, by rw [numeral], nonempty, first, last, ?_⟩
  have exponent : (ofMagnitude m).lead + 1 - ds.length = k + (shortest m).exponent := by
    rw [numeral]
    push_cast
    ring
  rw [exponent, Decimal.value, ← number, digitsNumber_zeros, zpow_add₀ (by norm_num),
    zpow_natCast]
  push_cast
  ring

/-! ## §4 The spellings of a numeral -/

variable {n : Numeral} {q : ℚ}

/-- The digits behind a point; there is at least one. -/
def atLeastOne (ds : List (Fin 10)) : List (Fin 10) := if ds = [] then [0] else ds

theorem fraction_digitChars (ds : List (Fin 10)) :
    fraction (digitChars ds) = digitChars (atLeastOne ds) := by
  cases ds <;> rfl

theorem atLeastOne_ne_nil (ds : List (Fin 10)) : atLeastOne ds ≠ [] := by
  cases ds <;> simp [atLeastOne]

/-- A zero in the place of no digits changes nothing. -/
theorem digitsNumber_atLeastOne (whole ds : List (Fin 10)) (k : Int) :
    (digitsNumber (whole ++ atLeastOne ds) : ℚ) * 10 ^ (k - (atLeastOne ds).length) =
      digitsNumber (whole ++ ds) * 10 ^ (k - ds.length) := by
  cases ds with
  | nil =>
    have zero := digitsNumber_concat whole 0
    rw [show atLeastOne [] = [0] from rfl, zero, List.append_nil, List.length_nil,
      List.length_singleton, Fin.val_zero, add_zero, Nat.cast_mul, Nat.cast_zero, sub_zero,
      Nat.cast_one, zpow_sub_one₀ (by norm_num)]
    push_cast
    field_simp
  | cons d ds => rfl

/-- Digits with a point among them, zeros filling the gap. -/
theorem digitsNumber_placed (ds : List (Fin 10)) (k : Nat) :
    (digitsNumber (ds.take k ++ List.replicate (k - ds.length) 0 ++ ds.drop k) : ℚ) *
      10 ^ (0 - ((ds.drop k).length : Int)) = digitsNumber ds * 10 ^ ((k : Int) - ds.length) := by
  rcases Nat.le_total ds.length k with short | long
  · obtain ⟨gap, rfl⟩ := Nat.exists_eq_add_of_le short
    rw [List.take_of_length_le short, List.drop_of_length_le short, List.append_nil,
      Nat.add_sub_cancel_left, digitsNumber_zeros]
    push_cast
    simp
  · rw [Nat.sub_eq_zero_of_le long, List.replicate_zero, List.append_nil, List.take_append_drop,
      List.length_drop, Nat.cast_sub long]
    congr 2
    ring

/-- With its point in place, a numeral is plainly spelled. -/
theorem Spells.exists_plain (h : n.Spells ds q) (negative : Bool) :
    ∃ s : Spelling, s.IsPlain ∧ s.negative = negative ∧
      s.text = Spelling.signed negative n.positional ∧ s.size = q := by
  have value := h.value
  unfold positional
  rw [h.digits]
  cases lead : n.lead with
  | ofNat k =>
    refine ⟨⟨negative, ds.take (k + 1) ++ List.replicate (k + 1 - ds.length) 0,
      atLeastOne (ds.drop (k + 1)), none⟩, ⟨?_, atLeastOne_ne_nil _, rfl⟩, rfl, ?_, ?_⟩
    · simpa using fun none => absurd none h.nonempty
    · have taken : (digitChars ds).take (k + 1) = digitChars (ds.take (k + 1)) := List.map_take.symm
      have dropped : (digitChars ds).drop (k + 1) = digitChars (ds.drop (k + 1)) :=
        List.map_drop.symm
      have length : (digitChars ds).length = ds.length := List.length_map _
      simp only [Spelling.text, Spelling.powerText, taken, dropped, length, fraction_digitChars,
        digitChars_append, digitChars_replicate, List.append_nil]
    · rw [lead] at value
      rw [← value]
      exact (digitsNumber_atLeastOne _ _ 0).trans (digitsNumber_placed ds (k + 1))
  | negSucc k =>
    refine ⟨⟨negative, [0], List.replicate k 0 ++ ds, none⟩,
      ⟨by simp, by simp [h.nonempty], rfl⟩, rfl, ?_, ?_⟩
    · simp only [Spelling.text, Spelling.powerText, digitChars_append, digitChars_replicate,
        List.append_nil]
      rfl
    · rw [lead] at value
      have zeros := digitsNumber_zeros_append (k + 1) ds
      rw [List.replicate_succ, List.cons_append] at zeros
      rw [← value, Spelling.size, Decimal.value, Spelling.decimal, List.singleton_append, zeros,
        List.length_append, List.length_replicate, Int.negSucc_eq]
      congr 2
      simp only [Spelling.exponent]
      push_cast
      ring

/-- An integer is written without a plus and without zeros in front. -/
theorem exists_integer (k : Int) :
    ∃ negative ds, integer k = Spelling.signed negative (digitChars ds) ∧
      (if negative then -(digitsNumber ds : Int) else digitsNumber ds) = k ∧ ds ≠ [] ∧
      (ds.head? = some 0 → ds = [0] ∧ negative = false) := by
  match k with
  | .ofNat 0 => exact ⟨false, [0], rfl, rfl, by simp, fun _ => ⟨rfl, rfl⟩⟩
  | .ofNat (k + 1) =>
    obtain ⟨ds, text, number, nonempty, leading⟩ := exists_toDigits (k + 1)
    exact ⟨false, ds, text, by simp [number], nonempty, fun zero =>
      absurd zero (leading (Nat.succ_pos k))⟩
  | .negSucc k =>
    obtain ⟨ds, text, number, nonempty, leading⟩ := exists_toDigits (k + 1)
    refine ⟨true, ds, ?_, ?_, nonempty, fun zero => absurd zero (leading (Nat.succ_pos k))⟩
    · rw [integer, text]
      rfl
    · rw [if_pos rfl, number]
      rfl

/-- With its point behind the first digit, a numeral is spelled with a power of ten. -/
theorem Spells.exists_scientific (h : n.Spells ds q) (negative : Bool) :
    ∃ s : Spelling, s.IsScientific ∧ s.negative = negative ∧
      s.text = Spelling.signed negative n.scientific ∧ s.size = q := by
  obtain ⟨digits, nonempty, first, last, value⟩ := h
  obtain ⟨d, rest, rfl⟩ := List.exists_cons_of_ne_nil nonempty
  obtain ⟨minus, power, written, exponent, some, canonical⟩ := exists_integer n.lead
  have first : d ≠ 0 := fun zero => first (congrArg Option.some zero)
  have ends : (atLeastOne rest).getLast? = .some 0 → atLeastOne rest = [0] := by
    intro zero
    cases rest with
    | nil => rfl
    | cons e rest => exact absurd zero (by simpa [atLeastOne] using last)
  refine ⟨⟨negative, [d], atLeastOne rest, .some (minus, power)⟩,
    ⟨⟨d, rfl, first⟩, ⟨atLeastOne_ne_nil rest, ends⟩, minus, power, rfl, some, canonical⟩, rfl, ?_,
    ?_⟩
  · have behind : (n.digits).drop 1 = digitChars rest := by rw [digits]; rfl
    have front : (n.digits).take 1 = digitChars [d] := by rw [digits]; rfl
    rw [scientific, behind, front, fraction_digitChars, written]
    simp [Spelling.text, Spelling.powerText]
  · rw [← value]
    show (digitsNumber ([d] ++ atLeastOne rest) : ℚ) *
      10 ^ ((if minus then -(digitsNumber power : Int) else digitsNumber power) -
        ((atLeastOne rest).length : Int)) = _
    rw [exponent, digitsNumber_atLeastOne, List.singleton_append, List.length_cons]
    congr 2
    push_cast
    ring

end Numeral

/-! ## §5 Texts without a final `.0` -/

open Double (dropPointZero)

theorem dropPointZero_append (cs : List Char) : dropPointZero (cs ++ ".0".toList) = cs := by
  have suffix : ".0".toList <:+ cs ++ ".0".toList := List.suffix_append _ _
  rw [dropPointZero, if_pos (List.isSuffixOf_iff_suffix.mpr suffix)]
  simp

theorem dropPointZero_of_not {cs : List Char} (h : ¬ ".0".toList <:+ cs) :
    dropPointZero cs = cs := by
  rw [dropPointZero, if_neg fun suffix => h (List.isSuffixOf_iff_suffix.mp suffix)]

theorem getLast?_of_suffix {cs : List Char} {c : Char} (h : ".0".toList <:+ cs ++ [c]) :
    cs.getLast? = some '.' ∧ c = '0' := by
  obtain ⟨front, eq⟩ := h
  have eq : (front ++ ['.']) ++ ['0'] = cs ++ [c] := by rw [← eq]; simp
  obtain ⟨rfl, last⟩ := List.append_inj' eq rfl
  exact ⟨List.getLast?_concat, (List.cons.inj last).1.symm⟩

theorem getLast?_ne_point {cs : List Char} {c : Char} (first : c ≠ '.') (others : '.' ∉ cs)
    (front : List Char) : (front ++ c :: cs).getLast? ≠ some '.' := by
  rw [List.getLast?_append_of_ne_nil _ (List.cons_ne_nil c cs)]
  intro last
  rcases List.mem_cons.mp (List.mem_of_getLast? last) with eq | mem
  · exact first eq.symm
  · exact others mem

theorem point_not_mem_digitChars (ds : List (Fin 10)) : '.' ∉ digitChars ds := fun mem =>
  absurd (isDigit_of_mem_digitChars mem) (by decide)

namespace Spelling

variable {s : Spelling}

theorem signed_append (negative : Bool) (body rest : List Char) :
    signed negative (body ++ rest) = signed negative body ++ rest := by
  cases negative <;> rfl

theorem mem_signed {negative : Bool} {body : List Char} {c : Char} (h : c ∈ signed negative body) :
    c = '-' ∨ c ∈ body := by
  cases negative with
  | false => exact .inr h
  | true => exact List.mem_cons.mp h

/-- A spelling with a power of ten does not end in `.0`. -/
theorem IsScientific.dropPointZero_text (h : s.IsScientific) : dropPointZero s.text = s.text := by
  obtain ⟨minus, ds, power, nonempty, -⟩ := h.power
  obtain ⟨ds, d, rfl⟩ := (List.eq_nil_or_concat' ds).resolve_left nonempty
  have split : s.text = (signed s.negative (digitChars s.whole ++ '.' :: digitChars s.fraction) ++
      'E' :: signed minus (digitChars ds)) ++ [Nat.digitChar d] := by
    simp only [text, power, powerText, digitChars_append, signed_append, List.append_assoc,
      List.cons_append]
    rfl
  have noPoint : '.' ∉ signed minus (digitChars ds) := fun mem =>
    (mem_signed mem).elim (by decide) (point_not_mem_digitChars ds)
  refine dropPointZero_of_not fun ends => ?_
  rw [split] at ends
  exact getLast?_ne_point (by decide) noPoint _ (getLast?_of_suffix ends).1

theorem IsPlain.text_eq (h : s.IsPlain) :
    s.text = signed s.negative (digitChars s.whole ++ '.' :: digitChars s.fraction) := by
  rw [text, h.power, powerText, List.append_nil]

/-- A plain spelling loses its fraction if this is a single zero. -/
theorem IsPlain.dropPointZero_text (h : s.IsPlain) : dropPointZero s.text =
    signed s.negative
      (digitChars s.whole ++ if s.fraction = [0] then [] else '.' :: digitChars s.fraction) := by
  rw [h.text_eq]
  split
  · next zero =>
    rw [zero, List.append_nil, signed_append]
    exact dropPointZero_append _
  · next other =>
    obtain ⟨ds, d, fraction⟩ := (List.eq_nil_or_concat' s.fraction).resolve_left h.fraction
    refine dropPointZero_of_not fun ends => ?_
    rw [fraction, digitChars_append, ← List.cons_append, ← List.append_assoc, signed_append] at ends
    obtain ⟨point, zero⟩ := getLast?_of_suffix ends
    have zero : d = 0 := digitChar_injective d 0 zero
    -- a digit stands before the last one, or that one is the only one
    cases ds with
    | nil => exact other (by rw [fraction, zero]; rfl)
    | cons e ds =>
      have digit : ∀ e : Fin 10, Nat.digitChar e ≠ '.' := by decide
      rw [show '.' :: digitChars (e :: ds) = ['.'] ++ Nat.digitChar e :: digitChars ds from rfl,
        ← List.append_assoc, signed_append] at point
      exact getLast?_ne_point (digit e) (point_not_mem_digitChars ds) _ point

end Spelling

/-- Puts a final `.0` behind a text that has nothing but digits and, perhaps, a minus. -/
def restorePointZero (cs : List Char) : List Char :=
  if cs.all fun c => c.isDigit || c == '-' then cs ++ ".0".toList else cs

theorem restorePointZero_of_mem {cs : List Char} {c : Char} (mem : c ∈ cs)
    (other : (c.isDigit || c == '-') = false) : restorePointZero cs = cs := by
  refine if_neg fun all => ?_
  have := List.all_eq_true.mp all c mem
  rw [other] at this
  cases this

/-- What is left out at the end of a spelling can be put back. -/
theorem Spelling.restorePointZero_dropPointZero {s : Spelling} (h : s.IsPlain ∨ s.IsScientific) :
    restorePointZero (dropPointZero s.text) = s.text := by
  have point : '.' ∈ s.text := by
    rw [text, signed_append]
    simp
  have noDigit : (Char.isDigit '.' || '.' == '-') = false := by decide
  rcases h with plain | scientific
  · rw [plain.dropPointZero_text]
    split
    · next zero =>
      have all : (signed s.negative (digitChars s.whole)).all
          (fun c => c.isDigit || c == '-') = true := by
        rw [List.all_eq_true]
        intro c mem
        rcases mem_signed mem with rfl | mem
        · decide
        · rw [isDigit_of_mem_digitChars mem]
          rfl
      rw [List.append_nil, restorePointZero, if_pos all, plain.text_eq, zero, signed_append]
      rfl
    · rw [plain.text_eq] at point ⊢
      exact restorePointZero_of_mem point noDigit
  · rw [scientific.dropPointZero_text]
    exact restorePointZero_of_mem point noDigit

end Scriptlet
