import HeartKeypad.Number.Read

/-!
# Hexadecimal digits

Digits are written in lower case and read in either.
-/

namespace HeartKeypad

namespace Hex

/-- The digit of a number below sixteen. -/
def digit (n : Nat) : Char :=
  if n < 10 then Char.ofNat (48 + n) else Char.ofNat (87 + n)

/-- The value of a digit. -/
def value? (c : Char) : Option Nat :=
  if Numeral.isDigit c then some (Numeral.digitValue c)
  else if 'a' ≤ c ∧ c ≤ 'f' then some (c.toNat - 87)
  else if 'A' ≤ c ∧ c ≤ 'F' then some (c.toNat - 55)
  else none

/-- The character is a digit. -/
def isDigit (c : Char) : Bool := (value? c).isSome

/-- The number that digits denote. -/
def nat? (s : Text) : Option Nat :=
  s.foldl (fun acc c => acc.bind fun n => (value? c).map fun d => 16 * n + d) (some 0)

/-- The sixteen digits of a word. -/
def ofWord (w : UInt64) : Text :=
  (List.range 16).map fun i => digit (w.toNat / Nat.pow 16 (15 - i) % 16)

end Hex

end HeartKeypad
