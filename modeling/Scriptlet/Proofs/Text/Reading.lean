/-
Scriptlet.Proofs.Text.Reading — reading bytes part by part.

A byte below 0x80 is a character of its own wherever it stands: no longer
encoding has such a byte (`ascii_of_mem_utf8EncodeChar`). Reading can therefore be
cut in front of it (`ofBytes_append`), and it is never a stray symbol
(`spelled_ofBytes`). Line ends, which are spelled with these bytes alone, can be
unified before or after reading (`bytes_unifyNewlines`).

  §1 Encodings and bytes below 0x80.
  §2 Reading parts.
  §3 Line ends in bytes.
-/
import Scriptlet.Text.Utf8
import Scriptlet.Text.Newline

namespace Scriptlet

/-! ## §1 Encodings and bytes below 0x80 -/

theorem utf8EncodeChar_ofUInt8 {b : UInt8} (ascii : b < 0x80) :
    String.utf8EncodeChar (Char.ofUInt8 b) = [b] := by
  have small : (Char.ofUInt8 b).val ≤ 127 := by
    have := UInt8.lt_iff_toNat_lt.mp ascii
    rw [UInt32.le_iff_toNat_le]
    show b.toUInt32.toNat ≤ 127
    simp at this ⊢
    omega
  rw [String.utf8EncodeChar_eq_singleton (Char.utf8Size_eq_one_iff.mpr small)]
  show [b.toUInt32.toUInt8] = [b]
  simp

theorem not_lt_or (x k : UInt8) (high : 0x80 ≤ k) : ¬ x ||| k < 0x80 := by
  have := @Nat.right_le_or x.toNat k.toNat
  rw [UInt8.le_iff_toNat_le] at high
  rw [UInt8.lt_iff_toNat_lt, UInt8.toNat_or]
  omega

/-- A byte below 0x80 is in no encoding but that of its own character. -/
theorem ascii_of_mem_utf8EncodeChar {c : Char} {b : UInt8} (h : b ∈ String.utf8EncodeChar c)
    (ascii : b < 0x80) : c = Char.ofUInt8 b := by
  rcases Char.utf8Size_eq c with size | size | size | size
  · rw [String.utf8EncodeChar_eq_singleton size, List.mem_singleton] at h
    have small := UInt32.le_iff_toNat_le.mp (Char.utf8Size_eq_one_iff.mp size)
    apply Char.ext
    apply UInt32.toNat_inj.mp
    subst h
    show c.val.toNat = c.val.toUInt8.toUInt32.toNat
    rw [UInt8.toNat_toUInt32, UInt32.toNat_toUInt8]
    exact (Nat.mod_eq_of_lt (Nat.lt_of_le_of_lt small (by decide))).symm
  · rw [String.utf8EncodeChar_eq_cons_cons size] at h
    simp only [List.mem_cons, List.not_mem_nil, or_false] at h
    rcases h with rfl | rfl <;> exact absurd ascii (not_lt_or _ _ (by decide))
  · rw [String.utf8EncodeChar_eq_cons_cons_cons size] at h
    simp only [List.mem_cons, List.not_mem_nil, or_false] at h
    rcases h with rfl | rfl | rfl <;> exact absurd ascii (not_lt_or _ _ (by decide))
  · rw [String.utf8EncodeChar_eq_cons_cons_cons_cons size] at h
    simp only [List.mem_cons, List.not_mem_nil, or_false] at h
    rcases h with rfl | rfl | rfl | rfl <;> exact absurd ascii (not_lt_or _ _ (by decide))

namespace Text

/-- The leading character is the one whose encoding the bytes start with. -/
theorem leadingChar?_eq_some_iff {bs : Bytes} {c : Char} :
    leadingChar? bs = some c ↔ String.utf8EncodeChar c <+: bs := by
  constructor
  · intro found
    exact ⟨_, (eq_encode_of_leadingChar? found).symm⟩
  · rintro ⟨rest, rfl⟩
    have fits : (String.utf8EncodeChar c).length ≤ 4 := by
      rw [String.length_utf8EncodeChar]
      exact Char.utf8Size_le_four c
    rw [leadingChar?, List.take_append, List.take_of_length_le fits, List.toByteArray_append]
    exact ByteArray.utf8DecodeChar?_utf8EncodeChar_append

/-! ## §2 Reading parts -/

theorem ofBytes_encode_append (c : Char) (rest : Bytes) :
    ofBytes (String.utf8EncodeChar c ++ rest) = .char c :: ofBytes rest := by
  have found : leadingChar? (String.utf8EncodeChar c ++ rest) = some c :=
    leadingChar?_eq_some_iff.mpr ⟨rest, rfl⟩
  have size : (String.utf8EncodeChar c).length = c.utf8Size := String.length_utf8EncodeChar c
  cases code : String.utf8EncodeChar c with
  | nil =>
    have := Char.utf8Size_pos c
    simp [code] at size
    omega
  | cons b more =>
    rw [code, List.cons_append] at found
    rw [List.cons_append, ofBytes, found]
    simp [← size, code]

/-- Characters that are written can be read again, whatever follows them. -/
theorem ofBytes_bytes_append {t : Text} (decoded : isDecoded t = true) (rest : Bytes) :
    ofBytes (bytes t ++ rest) = t ++ ofBytes rest := by
  induction t with
  | nil => rfl
  | cons s t ih =>
    simp only [isDecoded, List.all_cons, Bool.and_eq_true] at decoded
    cases s with
    | stray b => simp [Symbol.holds] at decoded
    | char c =>
      rw [bytes_cons, List.append_assoc]
      exact (ofBytes_encode_append c _).trans (congrArg _ (ih decoded.2))

theorem isDecoded_ofString (s : String) : isDecoded (ofString s) = true := by
  simp [isDecoded, ofString, Symbol.holds]

/-- Where no character starts, none does with more bytes, if these go on with one below 0x80. -/
theorem leadingChar?_append_eq_none {b : UInt8} {rest : Bytes}
    (h : leadingChar? (b :: rest) = none) {b' : UInt8} (ascii : b' < 0x80) (more : Bytes) :
    leadingChar? (b :: rest ++ b' :: more) = none := by
  cases found : leadingChar? (b :: rest ++ b' :: more) with
  | none => rfl
  | some c =>
    have start := leadingChar?_eq_some_iff.mp found
    rcases Nat.lt_or_ge (b :: rest).length (String.utf8EncodeChar c).length with long | short
    · -- The encoding would hold the byte below 0x80 and would then be that byte alone.
      have reaches : b :: rest ++ [b'] <+: String.utf8EncodeChar c := by
        refine List.prefix_of_prefix_length_le ?_ start (by simpa [Nat.succ_le_iff] using long)
        exact ⟨more, by simp⟩
      have inside : b' ∈ String.utf8EncodeChar c := reaches.subset (by simp)
      rw [ascii_of_mem_utf8EncodeChar inside ascii, utf8EncodeChar_ofUInt8 ascii] at long
      simp at long
    · have inside := List.prefix_of_prefix_length_le start (List.prefix_append _ _) short
      rw [leadingChar?_eq_some_iff.mpr inside] at h
      exact absurd h (by simp)

/-- Reading can be cut in front of a byte below 0x80. -/
theorem ofBytes_append (bs : Bytes) {b : UInt8} (ascii : b < 0x80) (rest : Bytes) :
    ofBytes (bs ++ b :: rest) = ofBytes bs ++ ofBytes (b :: rest) := by
  fun_induction ofBytes bs with
  | case1 => rfl
  | case2 b' more c found ih =>
    rw [eq_encode_of_leadingChar?_cons found, List.append_assoc, ofBytes_encode_append, ih]
    rfl
  | case3 b' more missing ih =>
    have missing' := leadingChar?_append_eq_none missing ascii rest
    rw [List.cons_append] at missing' ⊢
    rw [ofBytes, missing']
    exact congrArg _ ih

/-- The texts in which no byte below 0x80 is stray. -/
def Spelled (t : Text) : Prop := ∀ b, .stray b ∈ t → ¬ b < 0x80

theorem spelled_ofBytes (bs : Bytes) : Spelled (ofBytes bs) := by
  fun_induction ofBytes bs with
  | case1 => simp [Spelled]
  | case2 b rest c found ih =>
    intro b' h
    exact ih b' (by simpa using h)
  | case3 b rest missing ih =>
    intro b' h ascii
    rcases List.mem_cons.mp h with here | later
    · obtain rfl : b' = b := by simpa using here
      have found : leadingChar? (b' :: rest) = some (Char.ofUInt8 b') := by
        rw [leadingChar?_eq_some_iff, utf8EncodeChar_ofUInt8 ascii]
        exact ⟨rest, rfl⟩
      rw [found] at missing
      exact absurd missing (by simp)
    · exact ih b' later ascii

/-- The first byte of a text is one of its first symbol. -/
theorem mem_bytes_of_cons {s : Symbol} {t : Text} {b : UInt8} {rest : Bytes}
    (h : bytes (s :: t) = b :: rest) : b ∈ s.bytes := by
  cases code : s.bytes with
  | nil =>
    cases s with
    | char c =>
      have size : (String.utf8EncodeChar c).length = c.utf8Size := String.length_utf8EncodeChar c
      have pos := Char.utf8Size_pos c
      rw [show String.utf8EncodeChar c = [] from code, List.length_nil] at size
      omega
    | stray b' => simp [Symbol.bytes] at code
  | cons b' more =>
    rw [bytes_cons, code, List.cons_append, List.cons.injEq] at h
    simp [h.1]

/-- A byte below 0x80 is written for no symbol but its own character. -/
theorem Spelled.eq_of_mem_bytes {t : Text} (h : Spelled t) {s : Symbol} (mem : s ∈ t) {b : UInt8}
    (written : b ∈ s.bytes) (ascii : b < 0x80) : s = .char (Char.ofUInt8 b) := by
  cases s with
  | char c => rw [ascii_of_mem_utf8EncodeChar written ascii]
  | stray b' =>
    obtain rfl : b = b' := by simpa [Symbol.bytes] using written
    exact absurd ascii (h b mem)

/-! ## §3 Line ends in bytes -/

/-- Writes every line end in some bytes as the byte of a line feed. -/
def unifyNewlineBytes : Bytes → Bytes
  | [] => []
  | 0x0D :: 0x0A :: rest => 0x0A :: unifyNewlineBytes rest
  | 0x0D :: rest => 0x0A :: unifyNewlineBytes rest
  | b :: rest => b :: unifyNewlineBytes rest

theorem unifyNewlineBytes_append {bs : Bytes} (h : 0x0D ∉ bs) (rest : Bytes) :
    unifyNewlineBytes (bs ++ rest) = bs ++ unifyNewlineBytes rest := by
  induction bs with
  | nil => rfl
  | cons b bs ih =>
    rw [List.mem_cons, not_or] at h
    rw [List.cons_append, unifyNewlineBytes, ih h.2]
    · rfl
    · rintro more rfl; simp at h
    · rintro rfl; simp at h

/-- Line ends can be unified in a text or in its bytes. -/
theorem Spelled.bytes_unifyNewlines {t : Text} (h : Spelled t) :
    bytes (unifyNewlines t) = unifyNewlineBytes (bytes t) := by
  fun_induction unifyNewlines t with
  | case1 => rfl
  | case2 rest ih =>
    have := ih fun b mem => h b (by simp [mem])
    show 0x0A :: bytes (unifyNewlines rest) = _
    rw [this]
    rfl
  | case3 rest last ih =>
    have spelled : Spelled rest := fun b mem => h b (by simp [mem])
    show 0x0A :: bytes (unifyNewlines rest) = unifyNewlineBytes (0x0D :: bytes rest)
    rw [ih spelled, unifyNewlineBytes]
    intro more eq
    -- A line feed behind the carriage return would have been taken with it.
    cases rest with
    | nil => simp at eq
    | cons s rest =>
      have feed := spelled.eq_of_mem_bytes List.mem_cons_self (mem_bytes_of_cons eq) (by decide)
      exact last rest (by rw [feed]; rfl)
  | case4 s rest _ other ih =>
    have spelled : Spelled rest := fun b mem => h b (by simp [mem])
    have apart : 0x0D ∉ s.bytes := fun written =>
      other (h.eq_of_mem_bytes List.mem_cons_self written (by decide))
    rw [bytes_cons, bytes_cons, unifyNewlineBytes_append apart, ih spelled]

/-- A line feed is the only symbol that unifying line ends can bring in. -/
theorem mem_of_mem_unifyNewlines {t : Text} {s : Symbol} (h : s ∈ unifyNewlines t) :
    s = Symbol.lineFeed ∨ s ∈ t := by
  fun_induction unifyNewlines t with
  | case1 => simp at h
  | case2 rest ih => grind
  | case3 rest last ih => grind
  | case4 s' rest _ other ih => grind

/-- Line ends can be unified part by part, if the second part starts with no line feed. -/
theorem unifyNewlines_append (t : Text) {u : Text} (apart : u.head? ≠ some Symbol.lineFeed) :
    unifyNewlines (t ++ u) = unifyNewlines t ++ unifyNewlines u := by
  fun_induction unifyNewlines t with
  | case1 => rfl
  | case2 rest ih => exact congrArg (Symbol.lineFeed :: ·) ih
  | case3 rest last ih =>
    rw [List.cons_append, unifyNewlines, ih, List.cons_append]
    intro more eq
    cases rest with
    | nil =>
      rw [List.nil_append] at eq
      simp [eq, Symbol.lineFeed] at apart
    | cons s rest => exact last rest (by simp_all)
  | case4 s rest _ other ih =>
    rw [List.cons_append, unifyNewlines, ih, List.cons_append]
    · exact fun more eq => absurd eq other
    · exact other

end Text

end Scriptlet
