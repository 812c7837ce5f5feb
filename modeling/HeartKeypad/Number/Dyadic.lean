/-!
# The exact value of a double

A finite double is a dyadic rational `±m·2^e`.  `Dyadic.ofFloat?` reads it off
the sign, significand and exponent of the double, and every statement about the
value of a double, and every text of one, goes through it: no text is computed
with floating point.

* `Dyadic.isWhole` says that the value is an integer.
* `Dyadic.scaled` is the magnitude times a power of ten, rounded to the nearest
  natural number, ties to even.

The powers of two and ten are spelled `Nat.pow`.
-/

namespace HeartKeypad

/-- The dyadic rational `±significand·2^exponent`; the sign of zero is kept. -/
structure Dyadic where
  negative : Bool
  significand : Nat
  exponent : Int
deriving DecidableEq

namespace Dyadic

/-- The exact value of a double, if it is finite. -/
def ofFloat? (x : Float) : Option Dyadic :=
  match x.toModel.unpack with
  | .zero s => some ⟨s == .negative, 0, 0⟩
  | .finite s m e _ => some ⟨s == .negative, m, e⟩
  | .infinity _ => none
  | .notANumber => none

/-- The magnitude is `numerator / denominator`. -/
def numerator (d : Dyadic) : Nat := d.significand * Nat.pow 2 d.exponent.toNat

/-- The magnitude is `numerator / denominator`. -/
def denominator (d : Dyadic) : Nat := Nat.pow 2 (-d.exponent).toNat

/-- The value is an integer. -/
def isWhole (d : Dyadic) : Bool := d.numerator % d.denominator == 0

/-- The quotient `num / den` rounded to the nearest natural number; a quotient
halfway between two goes to the even one. -/
def roundDiv (num den : Nat) : Nat :=
  let q := num / den
  match compare (2 * (num % den)) den with
  | .lt => q
  | .gt => q + 1
  | .eq => q + q % 2

/-- The magnitude in units of `10^(-places)`, rounded to the nearest whole unit. -/
def scaled (d : Dyadic) (places : Nat) : Nat :=
  roundDiv (d.numerator * Nat.pow 10 places) d.denominator

theorem denominator_pos (d : Dyadic) : 0 < d.denominator :=
  Nat.pow_pos (by decide)

/-- The rounded quotient is within half a unit of the exact one. -/
theorem roundDiv_near (num den : Nat) (h : 0 < den) :
    2 * (roundDiv num den * den) ≤ 2 * num + den ∧
      2 * num ≤ 2 * (roundDiv num den * den) + den := by
  have e : den * (num / den) + num % den = num := Nat.div_add_mod num den
  have l : num % den < den := Nat.mod_lt _ h
  simp only [roundDiv]
  generalize num / den = q at *
  generalize num % den = r at *
  have step : (q + 1) * den = den * q + den := by rw [Nat.add_mul, Nat.mul_comm]; simp
  have comm : q * den = den * q := Nat.mul_comm ..
  split
  · rename_i hc; rw [Nat.compare_eq_lt] at hc; omega
  · rename_i hc; rw [Nat.compare_eq_gt] at hc; omega
  · rename_i hc; rw [Nat.compare_eq_eq] at hc
    rcases Nat.mod_two_eq_zero_or_one q with hq | hq
    · rw [hq, Nat.add_zero]; omega
    · rw [hq]; omega

end Dyadic

end HeartKeypad
