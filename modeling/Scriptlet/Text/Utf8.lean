/-
Scriptlet.Text.Utf8 — texts as bytes.

Writing a text gives the UTF-8 bytes of its characters and its stray bytes as
they are. Reading is the other way round and never fails: where the bytes at
hand do not start with the encoding of a character, the first of them becomes a
stray symbol and reading goes on behind it. So every byte of an overlong form, an
encoded surrogate, a number beyond the last code point or a broken sequence is a
symbol of its own. Strict reading refuses such input instead, and reading with
replacement puts U+FFFD where no character is.

  §1 Bytes of symbols and texts.
  §2 Reading, lenient and strict.
  §3 Reading with replacement.
  §4 Reading loses nothing: writing what was read gives the bytes back.
-/
import Scriptlet.Text.Basic

namespace Scriptlet

/-! ## §1 Bytes of symbols and texts -/

/-- The content of a file or a stream. -/
abbrev Bytes := List UInt8

/-- The bytes a symbol is written as. -/
def Symbol.bytes : Symbol → Bytes
  | .char c => String.utf8EncodeChar c
  | .stray b => [b]

namespace Text

/-- The bytes a text is written as. -/
def bytes (t : Text) : Bytes := t.flatMap Symbol.bytes

@[simp] theorem bytes_nil : bytes [] = [] := rfl

@[simp] theorem bytes_cons (s : Symbol) (t : Text) : bytes (s :: t) = s.bytes ++ bytes t := rfl

@[simp] theorem bytes_append (t u : Text) : bytes (t ++ u) = bytes t ++ bytes u := by
  simp [bytes]

/-! ## §2 Reading, lenient and strict -/

/-- The character whose encoding the bytes start with. No encoding is longer than four bytes. -/
def leadingChar? (bs : Bytes) : Option Char :=
  (bs.take 4).toByteArray.utf8DecodeChar? 0

/-- The text that the bytes spell; a byte that starts no character is a stray symbol. -/
def ofBytes : Bytes → Text
  | [] => []
  | b :: rest =>
    match leadingChar? (b :: rest) with
    | some c => .char c :: ofBytes (rest.drop (c.utf8Size - 1))
    | none => .stray b :: ofBytes rest
termination_by bs => bs.length

/-- Is every symbol a character? -/
def isDecoded (t : Text) : Bool :=
  t.all (Symbol.holds fun _ => true)

/-- The text that the bytes spell, if they are the encoding of characters throughout. -/
def ofBytes? (bs : Bytes) : Option Text :=
  let t := ofBytes bs
  if isDecoded t then some t else none

/-! ## §3 Reading with replacement -/

/-- The least and the greatest byte allowed at each place behind a first byte. A byte that starts no
character allows none. The second byte is bounded further where an overlong form, a surrogate or a
number beyond the last code point would follow. -/
def continuations (first : UInt8) : List (UInt8 × UInt8) :=
  let any : UInt8 × UInt8 := (0x80, 0xBF)
  if first < 0xC2 then []
  else if first < 0xE0 then [any]
  else if first = 0xE0 then [(0xA0, 0xBF), any]
  else if first = 0xED then [(0x80, 0x9F), any]
  else if first < 0xF0 then [any, any]
  else if first = 0xF0 then [(0x90, 0xBF), any, any]
  else if first < 0xF4 then [any, any, any]
  else if first = 0xF4 then [(0x80, 0x8F), any, any]
  else []

/-- How many bytes there are in front that keep to their bounds. -/
def countWithin : List (UInt8 × UInt8) → Bytes → Nat
  | (least, greatest) :: bounds, b :: rest =>
    if least ≤ b ∧ b ≤ greatest then countWithin bounds rest + 1 else 0
  | _, _ => 0

/-- What stands for bytes that are no character. -/
def replacement : Symbol := .char '\ufffd'

/-- The text that the bytes spell, with one replacement for every encoding that breaks off and for
every other byte that starts no character. -/
def ofBytesReplacing : Bytes → Text
  | [] => []
  | b :: rest =>
    match leadingChar? (b :: rest) with
    | some c => .char c :: ofBytesReplacing (rest.drop (c.utf8Size - 1))
    | none => replacement :: ofBytesReplacing (rest.drop (countWithin (continuations b) rest))
termination_by bs => bs.length

/-- With replacement nothing is left undecoded. -/
theorem isDecoded_ofBytesReplacing (bs : Bytes) : isDecoded (ofBytesReplacing bs) = true := by
  fun_induction ofBytesReplacing bs with
  | case1 => rfl
  | case2 b rest c found ih => simpa [isDecoded, Symbol.holds] using ih
  | case3 b rest found ih => simpa [isDecoded, Symbol.holds, replacement] using ih

/-- Where nothing is broken, reading with replacement is plain reading. -/
theorem ofBytesReplacing_eq_ofBytes {bs : Bytes} (h : isDecoded (ofBytes bs) = true) :
    ofBytesReplacing bs = ofBytes bs := by
  fun_induction ofBytes bs with
  | case1 => simp [ofBytesReplacing]
  | case2 b rest c found ih =>
    rw [ofBytesReplacing, found]
    simp only [isDecoded, List.all_cons, Bool.and_eq_true] at h
    simp [ih h.2]
  | case3 b rest found ih => simp [isDecoded, Symbol.holds] at h

/-! ## §4 Reading loses nothing -/

/-- A leading character's encoding is really there. -/
theorem eq_encode_of_leadingChar? {bs : Bytes} {c : Char} (h : leadingChar? bs = some c) :
    bs = String.utf8EncodeChar c ++ bs.drop c.utf8Size := by
  have key := String.toByteArray_utf8EncodeChar_of_utf8DecodeChar?_eq_some h
  have size := ByteArray.le_size_of_utf8DecodeChar?_eq_some h
  have len : (String.utf8EncodeChar c).length = c.utf8Size := by simp
  have taken : String.utf8EncodeChar c = (bs.take 4).take c.utf8Size := by
    have eq := congrArg (fun b => b.data.toList) key
    simpa using eq
  have fits : c.utf8Size ≤ 4 := Char.utf8Size_le_four c
  rw [List.take_take, Nat.min_eq_left fits] at taken
  conv => lhs; rw [← List.take_append_drop c.utf8Size bs]
  rw [taken]

/-- Behind a leading character the rest of its encoding is passed. -/
theorem eq_encode_of_leadingChar?_cons {b : UInt8} {rest : Bytes} {c : Char}
    (h : leadingChar? (b :: rest) = some c) :
    b :: rest = String.utf8EncodeChar c ++ rest.drop (c.utf8Size - 1) := by
  have eq := eq_encode_of_leadingChar? h
  have pos : 0 < c.utf8Size := Char.utf8Size_pos c
  have step : (b :: rest).drop c.utf8Size = rest.drop (c.utf8Size - 1) := by
    conv => lhs; rw [show c.utf8Size = (c.utf8Size - 1) + 1 by omega, List.drop_succ_cons]
  rwa [step] at eq

/-- Reading is undone by writing, whatever the bytes are. -/
theorem bytes_ofBytes (bs : Bytes) : bytes (ofBytes bs) = bs := by
  fun_induction ofBytes bs with
  | case1 => rfl
  | case2 b rest c found ih =>
    rw [bytes_cons, ih]
    exact (eq_encode_of_leadingChar?_cons found).symm
  | case3 b rest _ ih => rw [bytes_cons, ih]; rfl

end Text

end Scriptlet
