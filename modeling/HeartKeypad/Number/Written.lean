import HeartKeypad.Text.Blank
import HeartKeypad.Number.Dyadic

/-!
# Numbers in writing

Two ways to write a double, both positional and both computed in exact natural
arithmetic from its `Dyadic` value.

* `fixed places x` writes the nearest multiple of `10^(-places)`, ties to even.
* `shortest x` writes the fewest digits that are read back as `x`; of two such
  the nearer one, and of two equally near ones the larger.

A double that is not finite is written `NaN`, `inf` or `-inf`, and a negative
zero keeps its sign.

### How the shortest digits are found

The reals that round to `m·2^e` form an interval around it, whose ends belong to
it iff `m` is even.  Its lower half is narrower by half when `m` is the smallest
normal significand, since the doubles below lie twice as dense.  On the grid of
the multiples of `10^p` only the two neighbours of the value have to be tested;
`Span.onGrid?` does so, and the first grid with a hit, from coarse to fine, gives
the digits.
-/

namespace HeartKeypad

namespace Written

/-- The decimal digits of a natural number. -/
def digits (n : Nat) : Text := Nat.toDigits 10 n

/-- `n / 10^places`, written with all `places` digits behind the point. -/
def withPoint (n places : Nat) : Text :=
  if places = 0 then digits n
  else
    let tail := digits (n % Nat.pow 10 places)
    digits (n / Nat.pow 10 places) ++
      '.' :: (List.replicate (places - tail.length) '0' ++ tail)

/-- A minus sign for negative values, zero included. -/
def sign (negative : Bool) : Text := if negative then ['-'] else []

/-- What is written for a double that has no exact value. -/
def nonFinite (x : Float) : Text :=
  if x.isNaN then "NaN".toList
  else if x < 0.0 then "-inf".toList
  else "inf".toList

/-- The double with a fixed number of places: the nearest multiple of
`10^(-places)` to its exact value, ties to even. -/
def fixed (places : Nat) (x : Float) : Text :=
  match Dyadic.ofFloat? x with
  | some d => sign d.negative ++ withPoint (d.scaled places) places
  | none => nonFinite x

/-! ### Shortest digits -/

/-- The rationals around a value that round to it: `low`, `value` and `high` over
one denominator, and whether the ends belong to them. -/
structure Span where
  low : Nat
  value : Nat
  high : Nat
  denominator : Nat
  closed : Bool

/-- The interval of the rationals that round to a magnitude that is not zero. -/
def Span.ofDyadic (d : Dyadic) : Span :=
  let unit := Nat.pow 2 d.exponent.toNat
  let narrow := d.significand == Nat.pow 2 52 && decide (-1074 < d.exponent)
  { low := (4 * d.significand - (if narrow then 1 else 2)) * unit
    value := 4 * d.significand * unit
    high := (4 * d.significand + 2) * unit
    denominator := 4 * Nat.pow 2 (-d.exponent).toNat
    closed := d.significand % 2 == 0 }

/-- The interval with all its numbers times `10^k`. -/
def Span.times (s : Span) (k : Nat) : Span :=
  let f := Nat.pow 10 k
  { s with low := s.low * f, value := s.value * f, high := s.high * f }

/-- The natural number `n` lies in the interval. -/
def Span.holds (s : Span) (n : Nat) : Bool :=
  let x := n * s.denominator
  if s.closed then decide (s.low ≤ x) && decide (x ≤ s.high)
  else decide (s.low < x) && decide (x < s.high)

/-- The natural number in the interval that is nearest to its value; of two
equally near ones the larger. -/
def Span.nearest? (s : Span) : Option Nat :=
  let below := s.value / s.denominator
  match s.holds below, s.holds (below + 1) with
  | true, true =>
    if 2 * (s.value % s.denominator) < s.denominator then some below else some (below + 1)
  | true, false => some below
  | false, true => some (below + 1)
  | false, false => none

/-- A decimal `coefficient·10^power`. -/
structure Decimal where
  coefficient : Nat
  power : Int
deriving DecidableEq

/-- The multiple of `10^power` in the interval that is nearest to its value. -/
def Span.onGrid? (s : Span) (power : Int) : Option Decimal :=
  let s := s.times (-power).toNat
  let s := { s with denominator := s.denominator * Nat.pow 10 power.toNat }
  s.nearest?.map fun n => ⟨n, power⟩

/-- The number of digits of `n` in front of the point: none for zero. -/
def width (n : Nat) : Nat := if n = 0 then 0 else (digits n).length

/-- The least power of ten above the value: `value < 10^k`, for no smaller `k`. -/
def Span.magnitude (s : Span) : Int :=
  if s.denominator ≤ s.value then (width (s.value / s.denominator) : Int)
  else 1 - (width ((s.denominator + s.value - 1) / s.value - 1) : Int)

/-- The shortest decimal of the interval.  Seventeen digits are enough for every
double; the exact value stands in where the search would end without a hit. -/
def Span.shortest (s : Span) : Decimal :=
  let k := s.magnitude
  match (List.range 17).findSome? fun n : Nat => s.onGrid? (k - 1 - n) with
  | some d => d
  | none => ⟨s.value * Nat.pow 10 1100 / s.denominator, -1100⟩

/-- The text without the zeros it ends with, and without a point that would then
end it. -/
def dropZeros (s : Text) : Text :=
  match s.reverse.dropWhile (· == '0') with
  | '.' :: r => r.reverse
  | r => r.reverse

/-- A decimal in positional notation, with no superfluous zero. -/
def Decimal.toText (d : Decimal) : Text :=
  if 0 ≤ d.power then digits (d.coefficient * Nat.pow 10 d.power.toNat)
  else dropZeros (withPoint d.coefficient (-d.power).toNat)

/-- The double with the fewest digits that are read back as the same double,
always in positional notation. -/
def shortest (x : Float) : Text :=
  match Dyadic.ofFloat? x with
  | some d =>
    sign d.negative ++
      if d.significand = 0 then ['0'] else (Span.ofDyadic d).shortest.toText
  | none => nonFinite x

end Written

end HeartKeypad
