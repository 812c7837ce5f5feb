import HeartKeypad.Text.Utf8
import Mathlib.Data.List.Basic

/-!
# Texts and their bytes

Every text is read back from its UTF-8 encoding (`Utf8.decode_encode`).

The encoding is that of the library, by the magnitude of the code point.  A reader goes the other
way round: the first byte announces how many follow, and leaves a range for the second.  The
cases of `Utf8.firstChar_encodeChar` are those of the encoding; in each of them the ranges are
facts about one code point, which is no surrogate.
-/

namespace HeartKeypad

namespace Utf8

/-- The UTF-8 encoding of a text. -/
def encode (s : Text) : List UInt8 := s.flatMap String.utf8EncodeChar

@[simp] theorem encode_nil : encode [] = [] := rfl

@[simp] theorem encode_cons (c : Char) (s : Text) :
    encode (c :: s) = String.utf8EncodeChar c ++ encode s := rfl

theorem continues_of_bounds {b : UInt8} (low : 0x80 ≤ b.toNat) (high : b.toNat ≤ 0xBF) :
    continues b = true := by
  simp [continues, low, high]

/-- A byte that continues a character follows a first one, if it is in the range that is left. -/
theorem follows_of_bounds {a b : UInt8} (range : 0x80 ≤ b.toNat ∧ b.toNat ≤ 0xBF)
    (overlong : a.toNat = 0xE0 → 0xA0 ≤ b.toNat) (surrogate : a.toNat = 0xED → b.toNat ≤ 0x9F)
    (overlong' : a.toNat = 0xF0 → 0x90 ≤ b.toNat) (beyond : a.toNat = 0xF4 → b.toNat ≤ 0x8F) :
    follows a b = true := by
  unfold follows
  dsimp only
  split
  · simp [overlong ‹_›, range]
  · simp [surrogate ‹_›, range]
  · simp [overlong' ‹_›, range]
  · simp [beyond ‹_›, range]
  · exact continues_of_bounds range.1 range.2

section FirstChar

variable {a b c d : UInt8} {v : Nat} (rest : List UInt8)

/-! A character of one to four bytes is read, if its bytes hold the bits of its code point. -/

theorem firstChar_one (first : a.toNat = v) (range : v ≤ 0x7F) :
    firstChar a rest = .ok (Char.ofNat v, 0) := by
  have count : announced a = 1 := by
    unfold announced
    dsimp only
    rw [first, if_pos (by omega)]
  unfold firstChar
  rw [count]
  simp only [first]

theorem firstChar_two (first : a.toNat = v / 64 + 0xC0) (second : b.toNat = v % 64 + 0x80)
    (range : 0x7F < v ∧ v ≤ 0x7FF) :
    firstChar a (b :: rest) = .ok (Char.ofNat v, 1) := by
  have count : announced a = 2 := by
    unfold announced
    dsimp only
    rw [first, if_neg (by omega), if_pos (by omega)]
  have fits : follows a b = true := by
    refine follows_of_bounds ?_ ?_ ?_ ?_ ?_ <;> omega
  have bits : (a.toNat - 0xC0) * 64 + (b.toNat - 0x80) = v := by omega
  unfold firstChar
  rw [count]
  simp only [fits, if_true, assemble, List.foldl_cons, List.foldl_nil, bits]

theorem firstChar_three (first : a.toNat = v / 4096 + 0xE0) (second : b.toNat = v / 64 % 64 + 0x80)
    (third : c.toNat = v % 64 + 0x80) (range : 0x7FF < v ∧ v ≤ 0xFFFF)
    (valid : v < 0xD800 ∨ 0xDFFF < v) :
    firstChar a (b :: c :: rest) = .ok (Char.ofNat v, 2) := by
  have count : announced a = 3 := by
    unfold announced
    dsimp only
    rw [first, if_neg (by omega), if_neg (by omega), if_pos (by omega)]
  have fits : follows a b = true := by
    refine follows_of_bounds ?_ ?_ ?_ ?_ ?_ <;> omega
  have goesOn : continues c = true := continues_of_bounds (by omega) (by omega)
  have bits : ((a.toNat - 0xE0) * 64 + (b.toNat - 0x80)) * 64 + (c.toNat - 0x80) = v := by omega
  unfold firstChar
  rw [count]
  simp [fits, goesOn, assemble, bits]

theorem firstChar_four (first : a.toNat = v / 262144 + 0xF0)
    (second : b.toNat = v / 4096 % 64 + 0x80) (third : c.toNat = v / 64 % 64 + 0x80)
    (fourth : d.toNat = v % 64 + 0x80) (range : 0xFFFF < v ∧ v < 0x110000) :
    firstChar a (b :: c :: d :: rest) = .ok (Char.ofNat v, 3) := by
  have count : announced a = 4 := by
    unfold announced
    dsimp only
    rw [first, if_neg (by omega), if_neg (by omega), if_neg (by omega), if_pos (by omega)]
  have fits : follows a b = true := by
    refine follows_of_bounds ?_ ?_ ?_ ?_ ?_ <;> omega
  have goesOn : continues c = true := continues_of_bounds (by omega) (by omega)
  have goesOn' : continues d = true := continues_of_bounds (by omega) (by omega)
  have bits : (((a.toNat - 0xF0) * 64 + (b.toNat - 0x80)) * 64 + (c.toNat - 0x80)) * 64 +
      (d.toNat - 0x80) = v := by omega
  unfold firstChar
  rw [count]
  simp [fits, goesOn, goesOn', assemble, bits]

end FirstChar

/-- The encoding of a character, by the magnitude of its code point. -/
theorem encodeChar_eq (c : Char) : String.utf8EncodeChar c =
    if c.toNat ≤ 0x7F then [UInt8.ofNat c.toNat]
    else if c.toNat ≤ 0x7FF then
      [UInt8.ofNat (c.toNat / 64 % 32 + 0xC0), UInt8.ofNat (c.toNat % 64 + 0x80)]
    else if c.toNat ≤ 0xFFFF then
      [UInt8.ofNat (c.toNat / 4096 % 16 + 0xE0), UInt8.ofNat (c.toNat / 64 % 64 + 0x80),
        UInt8.ofNat (c.toNat % 64 + 0x80)]
    else
      [UInt8.ofNat (c.toNat / 262144 % 8 + 0xF0), UInt8.ofNat (c.toNat / 4096 % 64 + 0x80),
        UInt8.ofNat (c.toNat / 64 % 64 + 0x80), UInt8.ofNat (c.toNat % 64 + 0x80)] := rfl

/-- **A character is read from its encoding**, whatever stands behind it. -/
theorem firstChar_encodeChar (c : Char) (rest : List UInt8) :
    ∃ a bs, String.utf8EncodeChar c = a :: bs ∧
      firstChar a (bs ++ rest) = .ok (c, bs.length) := by
  have valid : c.toNat < 0xD800 ∨ 0xDFFF < c.toNat ∧ c.toNat < 0x110000 := c.valid
  have self : c = Char.ofNat c.toNat := (Char.ofNat_toNat c).symm
  have byte {n m : Nat} (same : n = m) (small : n < 256) : (UInt8.ofNat n).toNat = m := by
    rw [UInt8.toNat_ofNat', Nat.mod_eq_of_lt small, same]
  rw [encodeChar_eq]
  generalize c.toNat = v at valid self
  subst self
  split
  · exact ⟨_, [], rfl, firstChar_one rest (byte rfl (by omega)) (by omega)⟩
  split
  · exact ⟨_, [_], rfl, firstChar_two rest (byte (by omega) (by omega)) (byte rfl (by omega))
      (by omega)⟩
  split
  · exact ⟨_, [_, _], rfl, firstChar_three rest (byte (by omega) (by omega))
      (byte rfl (by omega)) (byte rfl (by omega)) (by omega) (by omega)⟩
  · exact ⟨_, [_, _, _], rfl, firstChar_four rest (byte (by omega) (by omega))
      (byte rfl (by omega)) (byte rfl (by omega)) (byte rfl (by omega)) (by omega)⟩

theorem decodeFrom_encode (s : Text) (index : Nat) : decodeFrom index (encode s) = .ok s := by
  induction s generalizing index with
  | nil => rw [encode_nil, decodeFrom]
  | cons c s ih =>
      obtain ⟨a, bs, bytes, read⟩ := firstChar_encodeChar c (encode s)
      rw [encode_cons, bytes, List.cons_append, decodeFrom, read]
      dsimp only
      rw [List.drop_left, ih]
      rfl

/-- **Every text is read back** from its encoding. -/
theorem decode_encode (s : Text) : decode (encode s) = .ok s := decodeFrom_encode s 0

end Utf8

end HeartKeypad
