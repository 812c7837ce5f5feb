import HeartKeypad.Number.Dyadic
import HeartKeypad.Proofs.Number.Nearest

/-!
# Magnitudes and their places

The exact magnitude of a double as a rational number, and what the numbers of the places mean
for it: `Dyadic.isWhole_iff`, `Dyadic.scaled_near` and `Dyadic.scaled_eq`.

`Dyadic.scaled_of_closer` says when two doubles have the same hundredths.  Half a hundredth
away is the one hard case, as the double on the other side is just as close; but that one
would be a hundredth away from the first, and no two doubles are
(`Double.Canonical.ne_hundredth`).
-/

namespace HeartKeypad

open Double (Canonical two_zpow_pos two_zpow_add_nat)

namespace Dyadic

variable {d c : Dyadic} {n p : Nat}

/-- The magnitude of a dyadic rational. -/
def magnitude (d : Dyadic) : ℚ := d.significand * 2 ^ d.exponent

theorem magnitude_nonneg (d : Dyadic) : 0 ≤ d.magnitude :=
  mul_nonneg (Nat.cast_nonneg _) (two_zpow_pos _).le

theorem magnitude_mul_denominator (d : Dyadic) : d.magnitude * d.denominator = d.numerator := by
  show d.significand * 2 ^ d.exponent * ((2 ^ (-d.exponent).toNat : Nat) : ℚ) =
    ((d.significand * 2 ^ d.exponent.toNat : Nat) : ℚ)
  push_cast
  rw [Double.two_pow_toNat d.exponent, mul_assoc]

theorem denominator_cast_pos (d : Dyadic) : (0 : ℚ) < d.denominator := by
  exact_mod_cast d.denominator_pos

/-- **A dyadic rational is whole** iff its magnitude is a natural number. -/
theorem isWhole_iff : d.isWhole = true ↔ ∃ n : Nat, d.magnitude = n := by
  have pos := d.denominator_cast_pos
  have value := d.magnitude_mul_denominator
  rw [isWhole, beq_iff_eq, ← Nat.dvd_iff_mod_eq_zero]
  constructor
  · rintro ⟨n, split⟩
    refine ⟨n, mul_right_cancel₀ (ne_of_gt pos) ?_⟩
    rw [value, split, Nat.cast_mul, mul_comm]
  · rintro ⟨n, same⟩
    rw [same] at value
    exact ⟨n, by rw [mul_comm]; exact_mod_cast value.symm⟩

/-- The nearest multiple of a place is half of it away at most. -/
theorem scaled_near (d : Dyadic) (p : Nat) :
    |d.magnitude * 10 ^ p - d.scaled p| ≤ 1 / 2 := by
  have pos := d.denominator_cast_pos
  obtain ⟨above, below⟩ := roundDiv_near (d.numerator * 10 ^ p) d.denominator d.denominator_pos
  change 2 * (d.scaled p * _) ≤ _ at above
  change _ ≤ 2 * (d.scaled p * _) + _ at below
  have value : d.magnitude * 10 ^ p * d.denominator = (d.numerator * 10 ^ p : Nat) := by
    rw [mul_right_comm, magnitude_mul_denominator]
    push_cast
    rfl
  generalize d.magnitude * 10 ^ p = x at *
  have above :
      (2 : ℚ) * (d.scaled p * d.denominator) ≤ 2 * (x * d.denominator) + d.denominator := by
    rw [value]
    exact_mod_cast above
  have below :
      (2 : ℚ) * (x * d.denominator) ≤ 2 * (d.scaled p * d.denominator) + d.denominator := by
    rw [value]
    exact_mod_cast below
  rw [abs_le]
  constructor
  · refine le_of_mul_le_mul_right ?_ pos
    linarith
  · refine le_of_mul_le_mul_right ?_ pos
    linarith

/-- No other multiple of a place is less than half of it away. -/
theorem scaled_eq (near : |d.magnitude * 10 ^ p - n| < 1 / 2) : d.scaled p = n := by
  by_contra other
  have apart := Double.one_le_abs_sub other
  have triangle := abs_sub_le (d.scaled p : ℚ) (d.magnitude * 10 ^ p) n
  have half := d.scaled_near p
  rw [abs_sub_comm] at half
  linarith

end Dyadic

namespace Double

variable {m k : Nat} {e g : Int}

/-- A magnitude has one canonical significand and exponent. -/
theorem Canonical.eq_of_mul_eq (c : Canonical m e) (d : Canonical k g)
    (same : (m : ℚ) * 2 ^ e = k * 2 ^ g) : m = k ∧ e = g := by
  wlog order : e ≤ g generalizing m k e g
  · obtain ⟨rfl, rfl⟩ := this d c same.symm (le_of_not_ge order)
    exact ⟨rfl, rfl⟩
  have exponent : g = e + (g - e).toNat := by omega
  have bits : m = k * 2 ^ (g - e).toNat := by
    rw [exponent, two_zpow_add_nat, mul_left_comm, mul_comm] at same
    have cancelled := mul_left_cancel₀ (two_zpow_pos e).ne' same
    exact_mod_cast cancelled
  rcases Nat.eq_zero_or_pos (g - e).toNat with none | some
  · rw [none, pow_zero, mul_one] at bits
    exact ⟨bits, by omega⟩
  · -- a larger exponent leaves fewer bits than a canonical significand has
    have small := c.bits
    have least := c.least
    have double : 2 * k ≤ m := by
      rw [bits, mul_comm]
      exact Nat.mul_le_mul_left k (Nat.le_self_pow (Nat.ne_of_gt some) 2)
    have full := d.full
    omega

/-- No two doubles are a hundredth apart, as a hundredth is no fraction of powers of two. -/
theorem Canonical.ne_hundredth (c : Canonical m e) (d : Canonical k g) :
    (m : ℚ) * 2 ^ e ≠ k * 2 ^ g + 1 / 100 := by
  intro same
  obtain ⟨bottom, hb⟩ : ∃ b : Nat, b = 1074 := ⟨_, rfl⟩
  have multiple (j : Nat) {f : Int} (least : -1074 ≤ f) :
      (j : ℚ) * 2 ^ f * 2 ^ bottom = (j * 2 ^ (f + bottom).toNat : Nat) := by
    have exponent : f + bottom = ((f + bottom).toNat : Int) := by omega
    rw [mul_assoc, ← two_zpow_add_nat, exponent, zpow_natCast]
    push_cast
    rfl
  have split := multiple m c.least
  rw [same, add_mul, multiple k d.least] at split
  have scaled : 100 * (m * 2 ^ (e + bottom).toNat) =
      100 * (k * 2 ^ (g + bottom).toNat) + 2 ^ bottom := by
    have scaled : (100 : ℚ) * (m * 2 ^ (e + bottom).toNat : Nat) =
        100 * (k * 2 ^ (g + bottom).toNat : Nat) + 2 ^ bottom := by
      rw [← split]
      ring
    exact_mod_cast scaled
  have five : 5 ∣ 2 ^ bottom :=
    (Nat.dvd_add_right (Dvd.dvd.mul_right (by norm_num) _)).1
      (scaled ▸ Dvd.dvd.mul_right (by norm_num) _)
  have := Nat.prime_five.dvd_of_dvd_pow five
  omega

end Double

namespace Dyadic

variable {c d : Dyadic} {n : Nat}

/-- The magnitude and the places of a dyadic rational do not know its sign. -/
theorem scaled_of_magnitude_eq (hc : Canonical c.significand c.exponent)
    (hd : Canonical d.significand d.exponent) (same : c.magnitude = d.magnitude) (p : Nat) :
    c.scaled p = d.scaled p := by
  obtain ⟨significand, exponent⟩ := hc.eq_of_mul_eq hd same
  rw [scaled, numerator, denominator, significand, exponent]
  rfl

/-- A double that is not whole has an exponent below zero, and so lies in the lower half of the
numbers of 53 bits. -/
theorem magnitude_lt_of_not_whole (hd : Canonical d.significand d.exponent)
    (h : ¬ d.isWhole = true) : d.magnitude < 2 ^ 52 := by
  have fraction : d.exponent ≤ -1 := by
    by_contra whole
    obtain ⟨k, exponent⟩ := Int.eq_ofNat_of_zero_le (show 0 ≤ d.exponent by omega)
    refine h (isWhole_iff.2 ⟨d.significand * 2 ^ k, ?_⟩)
    rw [magnitude, exponent, zpow_natCast]
    push_cast
    rfl
  have bits : (d.significand : ℚ) < 2 ^ 53 := by exact_mod_cast hd.bits
  have half : (2 : ℚ) ^ d.exponent ≤ 2 ^ (-1 : Int) := zpow_le_zpow_right₀ (by norm_num) fraction
  calc (d.significand : ℚ) * 2 ^ d.exponent ≤ d.significand * 2 ^ (-1 : Int) :=
        mul_le_mul_of_nonneg_left half (Nat.cast_nonneg _)
    _ < 2 ^ 53 * 2 ^ (-1 : Int) := mul_lt_mul_of_pos_right bits (two_zpow_pos _)
    _ = 2 ^ 52 := by norm_num

/-- Its hundredths are not many more than those of that bound. -/
theorem scaled_two_le (hd : Canonical d.significand d.exponent) (h : ¬ d.isWhole = true) :
    (d.scaled 2 : ℚ) ≤ 100 * 2 ^ 52 + 1 := by
  have bound := magnitude_lt_of_not_whole hd h
  have near := (abs_le.1 (d.scaled_near 2)).1
  linarith

theorem scaled_two_le_largest (hd : Canonical d.significand d.exponent)
    (h : ¬ d.isWhole = true) : (d.scaled 2 : ℚ) / 10 ^ 2 ≤ Double.largest := by
  have few := scaled_two_le hd h
  have := Double.two_pow_le_largest
  linarith

/-- **A double at least as close to the hundredths of another has the same hundredths.**  At
half a hundredth, where both directions are possible, it is the other one. -/
theorem scaled_of_closer (hc : Canonical c.significand c.exponent)
    (hd : Canonical d.significand d.exponent)
    (closer : |c.magnitude - d.scaled 2 / 10 ^ 2| ≤ |d.magnitude - d.scaled 2 / 10 ^ 2|) :
    c.scaled 2 = d.scaled 2 := by
  have hundred (x : ℚ) : |x * 10 ^ 2 - d.scaled 2| = |x - d.scaled 2 / 10 ^ 2| * 100 := by
    rw [← abs_of_pos (show (0 : ℚ) < 100 by norm_num), ← abs_mul]
    congr 1
    ring
  have half := d.scaled_near 2
  rw [hundred] at half
  rcases eq_or_lt_of_le closer with tie | less
  · rcases abs_eq_abs.1 tie with same | turned
    · exact scaled_of_magnitude_eq hc hd (sub_left_inj.1 same) 2
    · -- the two lie on either side, and less than a hundredth apart
      refine scaled_eq ?_
      rw [hundred, tie]
      refine lt_of_le_of_ne (by linarith) fun exact => ?_
      have apart : |d.magnitude - d.scaled 2 / 10 ^ 2| = 1 / 200 := by linarith
      rcases abs_eq (by norm_num) |>.1 apart with above | below
      · refine hd.ne_hundredth hc (?_ : d.magnitude = c.magnitude + 1 / 100)
        linarith
      · refine hc.ne_hundredth hd (?_ : c.magnitude = d.magnitude + 1 / 100)
        linarith
  · refine scaled_eq ?_
    rw [hundred]
    linarith

end Dyadic

end HeartKeypad
