import HeartKeypad.Text.Blank

/-!
# Numbers read from writing

A decimal literal is a run of digits with at most one point and at least one
digit.  `Numeral.value` is the double nearest to what it denotes, ties to even,
infinite when too large: `Float.ofScientific` rounds once.

`wordOf?` reads an unsigned 64-bit integer from an optional plus sign and digits.
-/

namespace HeartKeypad

namespace Numeral

/-- An ASCII decimal digit. -/
def isDigit (c : Char) : Bool := decide (48 ≤ c.toNat) && decide (c.toNat ≤ 57)

/-- A character of a numeral: a digit or the point. -/
def isNumeral (c : Char) : Bool := isDigit c || c == '.'

/-- The value of a digit. -/
def digitValue (c : Char) : Nat := c.toNat - 48

/-- The natural number that a run of digits denotes, behind the number already
read. -/
def natFrom (acc : Nat) : Text → Nat
  | [] => acc
  | c :: cs => natFrom (10 * acc + digitValue c) cs

/-- The natural number that a run of digits denotes. -/
def nat (ds : Text) : Nat := natFrom 0 ds

/-- A run of digits and points is well formed if it has a digit and at most one
point. -/
def wellFormed (s : Text) : Bool :=
  s.any isDigit && decide (s.count '.' ≤ 1)

/-- The double nearest to `±whole.fraction`, both runs of digits. -/
def ofParts (whole fraction : Text) : Float :=
  Float.ofScientific (nat (whole ++ fraction)) true fraction.length

/-- The value of a well-formed run: the digits in front of the point, and those
behind it. -/
def value (s : Text) : Float :=
  ofParts (s.takeWhile isDigit) ((s.dropWhile isDigit).drop 1)

/-- The double that a well-formed run denotes. -/
def read? (s : Text) : Option Float :=
  if s.all isNumeral && wellFormed s then some (value s) else none

/-- A run of digits that is not empty, and the text behind it. -/
def run? (s : Text) : Option (Text × Text) :=
  let ds := s.takeWhile isDigit
  if ds.isEmpty then none else some (ds, s.drop ds.length)

/-- An unsigned 64-bit integer: an optional plus sign, then digits and nothing
else. -/
def wordOf? (s : Text) : Option UInt64 :=
  let body := match s with
    | '+' :: r => r
    | r => r
  if body.isEmpty || !body.all isDigit then none
  else
    let n := nat body
    if n < UInt64.size then some (UInt64.ofNat n) else none

end Numeral

end HeartKeypad
