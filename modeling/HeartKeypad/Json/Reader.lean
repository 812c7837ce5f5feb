import HeartKeypad.Json.Value

/-!
# Reading JSON

`Json.read?` reads a value from a text that holds nothing else but blanks around
it.  An integer that fits no 64-bit word and a number with a fraction or an exponent
become doubles, and one beyond the range of doubles is refused.  Such a double is made
of as many leading digits as a 64-bit word has room for, and then scaled by a power of
ten; with more than fifteen digits it need not be the nearest one.  Where an object
names a field twice, the last value counts and stands in the first place.

Every level of nesting takes one unit of fuel; a text cannot nest deeper than it is
long, so the fuel is the length of the text.
-/

namespace HeartKeypad

namespace Json

/-- The blanks of JSON. -/
def isSpace (c : Char) : Bool := c == ' ' || c == '\t' || c == '\n' || c == '\r'

/-- The text behind blanks. -/
def skipSpace (s : Text) : Text := s.dropWhile isSpace

/-- The field of an object is set: in place if it is there, and else at the end. -/
def setField (name : Text) (value : Json) : List (Text × Json) → List (Text × Json)
  | [] => [(name, value)]
  | (n, v) :: fs => if n == name then (n, value) :: fs else (n, v) :: setField name value fs

/-- The fraction of a number, if there is one. -/
def fraction? : Text → Option (Text × Text)
  | '.' :: r => Numeral.run? r
  | r => some ([], r)

/-- The exponent of a number, if there is one. -/
def exponent? : Text → Option (Option Int × Text)
  | 'e' :: r | 'E' :: r =>
    match r with
    | '-' :: r => (Numeral.run? r).map fun (ds, r) => (some (-(Numeral.nat ds : Int)), r)
    | '+' :: r => (Numeral.run? r).map fun (ds, r) => (some (Numeral.nat ds : Int), r)
    | r => (Numeral.run? r).map fun (ds, r) => (some (Numeral.nat ds : Int), r)
  | r => some (none, r)

/-- Reads digits behind a significand for as long as it stays a 64-bit word: the
significand, and the digits that it has no room for. -/
def significand (m : Nat) : Text → Nat × Text
  | [] => (m, [])
  | c :: cs =>
    let n := 10 * m + Numeral.digitValue c
    if n < UInt64.size then significand n cs else (m, c :: cs)

/-- A power of ten among the doubles, the greatest of which is `10^308`. -/
def powerOfTen (k : Nat) : Float := Float.ofScientific 1 false k

/-- A double divided by `10^k`, in several steps if that is no double. -/
def reduce (x : Float) (k : Nat) : Float :=
  if k ≤ 308 then x / powerOfTen k
  else if x == 0.0 then x
  else reduce (x / powerOfTen 308) (k - 308)
termination_by k

/-- A double times `10^e`, if that is finite. -/
def scaled? (x : Float) (e : Int) : Option Float :=
  if e < 0 then some (reduce x e.natAbs)
  else if e ≤ 308 then
    let y := x * powerOfTen e.natAbs
    if y.isFinite then some y else none
  else if x == 0.0 then some x
  else none

/-- The number with a sign, digits, a fraction and an exponent. -/
def number? (minus : Bool) (whole fraction : Text) (exponent? : Option Int) : Option Json :=
  let (m, dropped) := significand 0 whole
  let isInteger := fraction.isEmpty && exponent?.isNone && dropped.isEmpty
  if isInteger && !minus then some (.integer m)
  else if isInteger && decide (0 < m) && decide (m ≤ 9223372036854775808) then
    some (.integer (-(m : Int)))
  else
    let (m, ignored) := significand m fraction
    let places : Int := dropped.length - (fraction.length - ignored.length : Nat)
    (scaled? (Float.ofNat m) (exponent?.getD 0 + places)).map fun x =>
      .real (if minus then -x else x)

/-- Reads the unsigned part of a number. -/
def readNumber? (minus : Bool) (s : Text) : Option (Json × Text) := do
  let (whole, s) ← Numeral.run? s
  if whole.length > 1 && whole.head? == some '0' then none
  let (fraction, s) ← fraction? s
  let (exponent, s) ← exponent? s
  let v ← number? minus whole fraction exponent
  some (v, s)

/-- Reads four hexadecimal digits. -/
def fourHex? (s : Text) : Option (Nat × Text) :=
  if s.length < 4 then none else (Hex.nat? (s.take 4)).map fun n => (n, s.drop 4)

/-- Reads an escaped character behind `\u`; a character beyond U+FFFF takes two. -/
def unicodeEscape? (s : Text) : Option (Char × Text) := do
  let (n, s) ← fourHex? s
  if 0xD800 ≤ n ∧ n < 0xDC00 then
    match s with
    | '\\' :: 'u' :: s => do
      let (m, s) ← fourHex? s
      if 0xDC00 ≤ m ∧ m < 0xE000 then
        some (Char.ofNat (0x10000 + (n - 0xD800) * 0x400 + (m - 0xDC00)), s)
      else none
    | _ => none
  else if 0xDC00 ≤ n ∧ n < 0xE000 then none
  else some (Char.ofNat n, s)

/-- The character of a one-letter escape. -/
def letterEscape? : Char → Option Char
  | '"' => some '"'
  | '\\' => some '\\'
  | '/' => some '/'
  | 'b' => some (Char.ofNat 8)
  | 'f' => some (Char.ofNat 12)
  | 'n' => some '\n'
  | 'r' => some '\r'
  | 't' => some '\t'
  | _ => none

/-- Reads a quoted text behind its first quote. -/
def readQuoted? : Nat → Text → Option (Text × Text)
  | 0, _ => none
  | fuel + 1, s =>
    match s with
    | [] => none
    | '"' :: r => some ([], r)
    | '\\' :: 'u' :: r => do
      let (c, r) ← unicodeEscape? r
      let (cs, r) ← readQuoted? fuel r
      some (c :: cs, r)
    | '\\' :: l :: r => do
      let c ← letterEscape? l
      let (cs, r) ← readQuoted? fuel r
      some (c :: cs, r)
    | c :: r =>
      if c.toNat < 32 || c == '\\' then none
      else (readQuoted? fuel r).map fun (cs, r) => (c :: cs, r)

mutual

/-- Reads a value in front of a text. -/
def readValue? : Nat → Text → Option (Json × Text)
  | 0, _ => none
  | fuel + 1, s =>
    match skipSpace s with
    | 'n' :: 'u' :: 'l' :: 'l' :: r => some (.null, r)
    | 't' :: 'r' :: 'u' :: 'e' :: r => some (.bool true, r)
    | 'f' :: 'a' :: 'l' :: 's' :: 'e' :: r => some (.bool false, r)
    | '"' :: r => (readQuoted? (r.length + 1) r).map fun (t, r) => (.string t, r)
    | '[' :: r =>
      match skipSpace r with
      | ']' :: r => some (.array [], r)
      | r => (readValues? fuel r).map fun (vs, r) => (.array vs, r)
    | '{' :: r =>
      match skipSpace r with
      | '}' :: r => some (.object [], r)
      | r => (readFields? fuel [] r).map fun (fs, r) => (.object fs, r)
    | '-' :: r => readNumber? true r
    | r => readNumber? false r

/-- Reads the values of an array, up to its closing bracket. -/
def readValues? : Nat → Text → Option (List Json × Text)
  | 0, _ => none
  | fuel + 1, s => do
    let (v, s) ← readValue? fuel s
    match skipSpace s with
    | ',' :: r => (readValues? fuel r).map fun (vs, r) => (v :: vs, r)
    | ']' :: r => some ([v], r)
    | _ => none

/-- Reads the fields of an object, up to its closing brace. -/
def readFields? : Nat → List (Text × Json) → Text → Option (List (Text × Json) × Text)
  | 0, _, _ => none
  | fuel + 1, fields, s =>
    match skipSpace s with
    | '"' :: r => do
      let (name, r) ← readQuoted? (r.length + 1) r
      match skipSpace r with
      | ':' :: r => do
        let (v, r) ← readValue? fuel r
        let fields := setField name v fields
        match skipSpace r with
        | ',' :: r => readFields? fuel fields r
        | '}' :: r => some (fields, r)
        | _ => none
      | _ => none
    | _ => none

end

/-- Reads a text that holds one value. -/
def read? (s : Text) : Option Json := do
  let (v, rest) ← readValue? (s.length + 1) s
  if (skipSpace rest).isEmpty then some v else none

end Json

end HeartKeypad
