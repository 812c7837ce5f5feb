import HeartKeypad.Number.Hex
import HeartKeypad.Time.Timestamp
import HeartKeypad.Toml.Value

/-!
# Numbers and moments of settings files

Readers for what starts with a digit or a sign: dates and times, numbers with a fraction
or an exponent, and integers, tried in that order.  Digits may be grouped by single
underscores.  Integers are signed 64-bit words; a positive number beyond the range of
doubles is refused.
-/

namespace HeartKeypad

namespace Toml

/-- A digit in front of digits already read. -/
def consDigit (c : Char) (run : Text × Text) : Text × Text := (c :: run.1, run.2)

/-- Digits of a kind, single underscores between them, and the text behind. -/
def readGroup? (isDigit : Char → Bool) : Text → Option (Text × Text)
  | [] => none
  | c :: r =>
    if isDigit c then
      match r with
      | [] => some ([c], [])
      | '_' :: r => (readGroup? isDigit r).map (consDigit c)
      | d :: r =>
        if isDigit d then (readGroup? isDigit (d :: r)).map (consDigit c)
        else some ([c], d :: r)
    else none

/-- A sign, and the text behind it. -/
def readSign : Text → Bool × Text
  | '-' :: r => (true, r)
  | '+' :: r => (false, r)
  | r => (false, r)

/-- A decimal number without superfluous zeros in front. -/
def readWhole? : Text → Option (Text × Text)
  | '0' :: r => some (['0'], r)
  | r => readGroup? Numeral.isDigit r

/-- The exponent of a number. -/
def readExponent? : Text → Option (Int × Text)
  | 'e' :: r | 'E' :: r =>
    let (minus, r) := readSign r
    (readGroup? Numeral.isDigit r).map fun (ds, r) =>
      (if minus then -(Numeral.nat ds : Int) else (Numeral.nat ds : Int), r)
  | _ => none

/-- The double `±m·10^e`, unless it is positive and beyond the range of doubles. -/
def scientific? (minus : Bool) (m : Nat) (e : Int) : Option Toml :=
  let x := Float.ofScientific m (decide (e < 0)) e.natAbs
  if minus then some (.real (-x))
  else if x.isFinite then some (.real x)
  else none

/-- A number with a fraction, an exponent, or both. -/
def readReal? (s : Text) : Option (Toml × Text) := do
  let (minus, r) := readSign s
  let (whole, r) ← readWhole? r
  match r with
  | '.' :: r => do
    let (fraction, r) ← readGroup? Numeral.isDigit r
    let m := Numeral.nat (whole ++ fraction)
    match r with
    | 'e' :: _ | 'E' :: _ => do
      let (e, r) ← readExponent? r
      let v ← scientific? minus m (e - (fraction.length : Int))
      some (v, r)
    | r => do
      let v ← scientific? minus m (-(fraction.length : Int))
      some (v, r)
  | r => do
    let (e, r) ← readExponent? r
    let v ← scientific? minus (Numeral.nat whole) e
    some (v, r)

/-- A number that is infinite or none at all. -/
def readNonFinite? (s : Text) : Option (Toml × Text) :=
  let (minus, r) := readSign s
  match r with
  | 'i' :: 'n' :: 'f' :: r =>
    some (.real (if minus then -(1.0 / 0.0) else 1.0 / 0.0), r)
  | 'n' :: 'a' :: 'n' :: r => some (.real (0.0 / 0.0), r)
  | _ => none

/-- An integer, if it is a signed 64-bit word. -/
def integer? (n : Int) : Option Toml :=
  if -9223372036854775808 ≤ n ∧ n ≤ 9223372036854775807 then some (.integer n) else none

/-- An octal digit. -/
def isOctal (c : Char) : Bool := Numeral.isDigit c && decide (c.toNat < 56)

/-- A binary digit. -/
def isBinary (c : Char) : Bool := c == '0' || c == '1'

/-- The number that digits denote in a base. -/
def natInBase (base : Nat) (ds : Text) : Nat :=
  ds.foldl (fun n c => base * n + (Hex.value? c).getD 0) 0

/-- An unsigned integer in a base, behind the mark of the base. -/
def readInBase? (base : Nat) (isDigit : Char → Bool) (s : Text) : Option (Toml × Text) := do
  let (ds, r) ← readGroup? isDigit s
  let v ← integer? (natInBase base ds)
  some (v, r)

/-- An integer. -/
def readInteger? : Text → Option (Toml × Text)
  | '0' :: 'x' :: r => readInBase? 16 Hex.isDigit r
  | '0' :: 'o' :: r => readInBase? 8 isOctal r
  | '0' :: 'b' :: r => readInBase? 2 isBinary r
  | s => do
    let (minus, r) := readSign s
    let (ds, r) ← readWhole? r
    let n : Int := Numeral.nat ds
    let v ← integer? (if minus then -n else n)
    some (v, r)

/-! ### Dates and times -/

/-- Two digits that denote a number in a range. -/
def readRange? (least most : Nat) (s : Text) : Option (Nat × Text) := do
  let (n, r) ← Timestamp.twoDigits? s
  if least ≤ n ∧ n ≤ most then some (n, r) else none

/-- The text behind a character. -/
def after? (c : Char) (s : Text) : Option Text := Timestamp.skip? [c] s

/-- The text behind a date. -/
def afterDate? (s : Text) : Option Text := do
  let (century, r) ← Timestamp.twoDigits? s
  let (year, r) ← Timestamp.twoDigits? r
  let r ← after? '-' r
  let (month, r) ← readRange? 1 12 r
  let r ← after? '-' r
  let (day, r) ← readRange? 1 31 r
  if (Date.mk (100 * century + year) month day).valid then some r else none

/-- The text behind a time of day. -/
def afterTime? (s : Text) : Option Text := do
  let (_, r) ← readRange? 0 23 s
  let r ← after? ':' r
  let (_, r) ← readRange? 0 59 r
  let r ← after? ':' r
  let (_, r) ← readRange? 0 60 r
  match r with
  | '.' :: r => do
    let (_, r) ← Numeral.run? r
    some r
  | r => some r

/-- The text behind an offset from UTC, which may be missing; a sign must be followed by
hours and minutes. -/
def afterOffset? : Text → Option Text
  | 'Z' :: r | 'z' :: r => some r
  | '+' :: r | '-' :: r => do
    let (_, r) ← readRange? 0 23 r
    let r ← after? ':' r
    let (_, r) ← readRange? 0 59 r
    some r
  | r => some r

/-- A date, a time of day, or both with an offset. -/
def readMoment? (s : Text) : Option (Toml × Text) :=
  match afterDate? s with
  | some r =>
    match (Timestamp.skip? ['T', 't', ' '] r).bind afterTime? with
    | some r => (afterOffset? r).map fun r => (.moment, r)
    | none => some (.moment, r)
  | none => (afterTime? s).map fun r => (.moment, r)

/-- What starts with a digit or a sign. -/
def readNumber? (s : Text) : Option (Toml × Text) :=
  (readMoment? s).or ((readReal? s).or ((readNonFinite? s).or (readInteger? s)))

end Toml

end HeartKeypad
