import HeartKeypad.Text.Blank

/-!
# Texts from bytes

`Utf8.decode` reads a text from its UTF-8 encoding.  At the first byte that does not
belong to one it stops, and says where that is and how many bytes from there are the
beginning of a character that cannot go on; bytes that end in the middle of a
character are incomplete instead.

A character of several bytes is well formed if its first byte announces their number,
the second one lies in the range that the first leaves (which shuts out overlong
forms, surrogates and what lies beyond U+10FFFF), and all others continue it.
-/

namespace HeartKeypad

/-- Where bytes stop being UTF-8, and how many of them are then at fault; none if they
end too early. -/
structure Utf8Fault where
  index : Nat
  length? : Option Nat
deriving DecidableEq

/-- What is said about bytes that are no text. -/
def Utf8Fault.message (f : Utf8Fault) : String :=
  match f.length? with
  | some n => "invalid utf-8 sequence of " ++ toString n ++ " bytes from index " ++
      toString f.index
  | none => "incomplete utf-8 byte sequence from index " ++ toString f.index

namespace Utf8

/-- A byte that continues a character. -/
def continues (b : UInt8) : Bool := decide (0x80 ≤ b.toNat) && decide (b.toNat ≤ 0xBF)

/-- The number of bytes that a first byte announces. -/
def announced (b : UInt8) : Nat :=
  let n := b.toNat
  if n < 0x80 then 1
  else if 0xC2 ≤ n ∧ n ≤ 0xDF then 2
  else if 0xE0 ≤ n ∧ n ≤ 0xEF then 3
  else if 0xF0 ≤ n ∧ n ≤ 0xF4 then 4
  else 0

/-- A second byte in the range that the first leaves. -/
def follows (first second : UInt8) : Bool :=
  let n := second.toNat
  match first.toNat with
  | 0xE0 => decide (0xA0 ≤ n) && decide (n ≤ 0xBF)
  | 0xED => decide (0x80 ≤ n) && decide (n ≤ 0x9F)
  | 0xF0 => decide (0x90 ≤ n) && decide (n ≤ 0xBF)
  | 0xF4 => decide (0x80 ≤ n) && decide (n ≤ 0x8F)
  | _ => continues second

/-- The character with the given leading bits and continuing bytes. -/
def assemble (lead : Nat) (rest : List UInt8) : Char :=
  Char.ofNat (rest.foldl (fun n b => n * 64 + (b.toNat - 0x80)) lead)

/-- The character that starts with a byte, and how many of the bytes behind it belong to
it; otherwise how many bytes are at fault, or none if they end too early. -/
def firstChar (a : UInt8) (bs : List UInt8) : Except (Option Nat) (Char × Nat) :=
  match announced a with
  | 1 => .ok (Char.ofNat a.toNat, 0)
  | 2 =>
    match bs with
    | [] => .error none
    | b :: _ =>
      if follows a b then .ok (assemble (a.toNat - 0xC0) [b], 1) else .error (some 1)
  | 3 =>
    match bs with
    | [] => .error none
    | [b] => .error (if follows a b then none else some 1)
    | b :: c :: _ =>
      if !follows a b then .error (some 1)
      else if !continues c then .error (some 2)
      else .ok (assemble (a.toNat - 0xE0) [b, c], 2)
  | 4 =>
    match bs with
    | [] => .error none
    | [b] => .error (if follows a b then none else some 1)
    | [b, c] =>
      .error (if !follows a b then some 1 else if !continues c then some 2 else none)
    | b :: c :: d :: _ =>
      if !follows a b then .error (some 1)
      else if !continues c then .error (some 2)
      else if !continues d then .error (some 3)
      else .ok (assemble (a.toNat - 0xF0) [b, c, d], 3)
  | _ => .error (some 1)

/-- Reads a text from bytes, the first of which has a given index. -/
def decodeFrom (index : Nat) : List UInt8 → Except Utf8Fault Text
  | [] => .ok []
  | a :: bs =>
    match firstChar a bs with
    | .ok (c, n) => (decodeFrom (index + n + 1) (bs.drop n)).map (c :: ·)
    | .error length? => .error ⟨index, length?⟩
termination_by bytes => bytes.length
decreasing_by
  simp only [List.length_cons, List.length_drop]
  omega

/-- Reads a text from bytes. -/
def decode (bytes : List UInt8) : Except Utf8Fault Text := decodeFrom 0 bytes

end Utf8

end HeartKeypad
