import HeartKeypad.Proofs.Number.Places

/-!
# Doubles as rational numbers

The exact value of a double with its sign, and the doubles closest to a rational number.

* `Double.exact` — the exact value of a finite double.
* `Double.Closest` — no finite double is closer to the number.
* `Double.Nearest.closest` — a nearest magnitude with the right sign is closest.
* `Double.Closest.relative` — a closest double is off by a part in `2^53` at most.
* `Double.exact_ne_hundredth` — no two doubles are a hundredth apart.

### The sign

Rounding looks at magnitudes and leaves the sign alone.  For a number with a sign this is
as good: a double on the other side of zero is further away than zero itself, and zero has
a magnitude too.
-/

namespace HeartKeypad

open Float.Model Float.Model.UnpackedFloat

/-! ### Signed numbers -/

/-- A magnitude with its sign. -/
def withSign (negative : Bool) (r : ℚ) : ℚ := if negative then -r else r

theorem abs_withSign (negative : Bool) (r : ℚ) : |withSign negative r| = |r| := by
  cases negative with
  | false => rfl
  | true => exact abs_neg r

theorem withSign_sub (negative : Bool) (r q : ℚ) :
    withSign negative r - withSign negative q = withSign negative (r - q) := by
  cases negative with
  | false => rfl
  | true => exact (neg_sub' r q).symm

theorem withSign_zero (negative : Bool) : withSign negative 0 = 0 := by
  cases negative with
  | false => rfl
  | true => exact neg_zero

/-- The distance to a number on the other side of zero. -/
theorem abs_withSign_sub_not (negative : Bool) {r q : ℚ} (hr : 0 ≤ r) (hq : 0 ≤ q) :
    |withSign (!negative) r - withSign negative q| = r + q := by
  cases negative with
  | false =>
      show |-r - q| = r + q
      rw [← neg_add', abs_neg, abs_of_nonneg (add_nonneg hr hq)]
  | true =>
      show |r - -q| = r + q
      rw [sub_neg_eq_add, abs_of_nonneg (add_nonneg hr hq)]

/-- The value of a dyadic rational, with its sign. -/
def Dyadic.value (d : Dyadic) : ℚ := withSign d.negative d.magnitude

namespace Double

variable {x y : Float} {negative : Bool} {m : Nat} {e : Int} {r : ℚ}

/-- **The exact value of a double**; zero stands in where there is none. -/
def exact (x : Float) : ℚ := ((Dyadic.ofFloat? x).map Dyadic.value).getD 0

theorem exact_of_unpack (h : x.toModel.unpack = ofSignificand (signOf negative) m e) :
    exact x = withSign negative (m * 2 ^ e) := by
  rcases Nat.eq_zero_or_pos m with rfl | pos
  · rw [Nat.cast_zero, zero_mul, withSign_zero, exact, Dyadic.ofFloat?, h]
    show withSign _ (((0 : Nat) : ℚ) * 2 ^ (0 : Int)) = 0
    rw [Nat.cast_zero, zero_mul, withSign_zero]
  · rw [ofSignificand_pos _ pos] at h
    rw [exact, Dyadic.ofFloat?, h]
    cases negative <;> rfl

/-- A finite double, by its sign and its canonical significand and exponent. -/
theorem exists_significand (finite : x.isFinite = true) : ∃ negative m e, Canonical m e ∧
    x.toModel.unpack = ofSignificand (signOf negative) m e := by
  change x.toModel.unpack.isFinite = true at finite
  have sign (s : Sign) : s = signOf (s == .negative) := by cases s <;> rfl
  cases unpacked : x.toModel.unpack with
  | notANumber => rw [unpacked] at finite; cases finite
  | infinity s => rw [unpacked] at finite; cases finite
  | zero s =>
      refine ⟨s == .negative, 0, -1074, canonical_zero, ?_⟩
      rw [← sign]
      rfl
  | finite s m e pos =>
      refine ⟨s == .negative, m, e, canonical_of_unpack unpacked, ?_⟩
      rw [← sign, ofSignificand_pos _ pos]

/-- Every canonical significand and exponent is that of a double, with either sign. -/
theorem exists_double (negative : Bool) (c : Canonical m e) :
    ∃ x : Float, x.isFinite = true ∧ exact x = withSign negative (m * 2 ^ e) := by
  have unpacked := unpack_pack_ofSignificand (signOf negative) c
  refine ⟨.ofModel (Float.Model.pack (ofSignificand (signOf negative) m e)), ?_,
    exact_of_unpack unpacked⟩
  show (Float.Model.pack _).unpack.isFinite = true
  rw [unpacked, ofSignificand]
  split <;> rfl

/-- Turning the sign of a double turns that of its value. -/
theorem unpack_neg (x : Float) : (-x).toModel.unpack = x.toModel.unpack.neg := by
  show (Float.Model.pack x.toModel.unpack.neg).unpack = _
  rw [unpack_pack_neg, unpack_pack_unpack]

/-! ### The closest double -/

/-- **A closest double**: it is finite, and no finite double is closer to the number. -/
structure Closest (r : ℚ) (x : Float) : Prop where
  finite : x.isFinite = true
  closest : ∀ y : Float, y.isFinite = true → |exact x - r| ≤ |exact y - r|

/-- **A nearest magnitude with the sign of the number is closest** to it. -/
theorem Nearest.closest (h : Nearest (signOf negative) r x.toModel.unpack) (nonneg : 0 ≤ r) :
    Closest (withSign negative r) x := by
  refine ⟨h.isFinite, fun y hy => ?_⟩
  obtain ⟨m, e, c, unpacked, closest⟩ := h
  obtain ⟨other, k, g, ck, unpackedY⟩ := exists_significand hy
  rw [exact_of_unpack unpacked, exact_of_unpack unpackedY, withSign_sub, abs_withSign]
  rcases Bool.eq_or_eq_not other negative with rfl | rfl
  · rw [withSign_sub, abs_withSign]
    exact closest k g ck
  · -- zero lies between the two
    have magnitude : (0 : ℚ) ≤ k * 2 ^ g := mul_nonneg (Nat.cast_nonneg k) (two_zpow_pos g).le
    have zero := closest 0 (-1074) canonical_zero
    rw [Nat.cast_zero, zero_mul, zero_sub, abs_neg, abs_of_nonneg nonneg] at zero
    rw [abs_withSign_sub_not negative magnitude nonneg]
    linarith

/-- A double that is closest to the value of another one has this value. -/
theorem Closest.exact_eq (h : Closest r x) (hy : y.isFinite = true) (same : exact y = r) :
    exact x = r := by
  have none := h.closest y hy
  rw [same, sub_self, abs_zero, abs_nonpos_iff, sub_eq_zero] at none
  exact none

/-! ### How far the closest double is -/

/-- The unit of the last place for a number of the normal range. -/
theorem exists_unit (low : (2 : ℚ) ^ (-1022 : Int) ≤ r) :
    ∃ t : Int, -1074 ≤ t ∧ 2 ^ 52 * (2 : ℚ) ^ t ≤ r ∧ r < 2 ^ 53 * 2 ^ t := by
  have pos : 0 < r := lt_of_lt_of_le (two_zpow_pos _) low
  have bottom : -1022 ≤ Int.log 2 r := by
    rwa [← Int.zpow_le_iff_le_log (b := 2) (by norm_num) pos, Nat.cast_ofNat]
  have floor := Int.zpow_log_le_self (b := 2) (by norm_num) pos
  have ceil := Int.lt_zpow_succ_log_self (b := 2) (by norm_num) r
  rw [Nat.cast_ofNat] at floor ceil
  have split (i : Nat) (g : Int) : (2 : ℚ) ^ i * 2 ^ g = 2 ^ (g + i) := by
    rw [two_zpow_add_nat, mul_comm]
  refine ⟨Int.log 2 r - 52, by omega, ?_, ?_⟩
  · rwa [split, Nat.cast_ofNat, sub_add_cancel]
  · have next : Int.log 2 r - 52 + (53 : Nat) = Int.log 2 r + 1 := by omega
    rwa [split, next]

/-- Some double is off by a part in `2^53` of the number at most. -/
theorem exists_canonical_near (low : (2 : ℚ) ^ (-1022 : Int) ≤ r) (high : r ≤ largest) :
    ∃ m e, Canonical m e ∧ |(m : ℚ) * 2 ^ e - r| ≤ r / 2 ^ 53 := by
  obtain ⟨t, least, above, below⟩ := exists_unit low
  have unit := two_zpow_pos t
  have most := exponent_le_of_large above high
  -- the number in units of the last place, rounded to a natural number
  obtain ⟨n, hn⟩ : ∃ n, n = ⌊r / 2 ^ t + 1 / 2⌋₊ := ⟨_, rfl⟩
  have large : (2 : ℚ) ^ 52 ≤ r / 2 ^ t := (le_div_iff₀ unit).2 above
  have small : r / 2 ^ t < 2 ^ 53 := (div_lt_iff₀ unit).2 below
  have floor : (n : ℚ) ≤ r / 2 ^ t + 1 / 2 := hn ▸ Nat.floor_le (by linarith)
  have next : r / 2 ^ t + 1 / 2 < n + 1 := hn ▸ Nat.lt_floor_add_one _
  have half : |(n : ℚ) * 2 ^ t - r| ≤ 2 ^ t / 2 := by
    have split : (n : ℚ) * 2 ^ t - r = (n - r / 2 ^ t) * 2 ^ t := by
      rw [sub_mul, div_mul_cancel₀ _ unit.ne']
    have within : |(n : ℚ) - r / 2 ^ t| ≤ 1 / 2 := abs_le.2 ⟨by linarith, by linarith⟩
    rw [split, abs_mul, abs_of_pos unit]
    linarith [mul_le_mul_of_nonneg_right within unit.le]
  have part : (2 : ℚ) ^ t / 2 ≤ r / 2 ^ 53 := by linarith
  have bits : 2 ^ 52 ≤ n := by
    rw [hn]
    refine Nat.le_floor ?_
    push_cast
    linarith
  have few : n ≤ 2 ^ 53 := by
    have : (n : ℚ) < ((2 ^ 53 + 1 : Nat) : ℚ) := by
      push_cast
      linarith
    exact Nat.lt_succ_iff.1 (by exact_mod_cast this)
  rcases Nat.lt_or_eq_of_le few with short | carried
  · exact ⟨n, t, ⟨short, least, most, Or.inl bits⟩, half.trans part⟩
  · -- the carry moves on to the next exponent
    have room : t ≤ 970 := by
      by_contra high'
      obtain rfl : t = 971 := by omega
      rw [carried] at half
      exact absurd (high.trans_lt largest_lt_overflow)
        (not_lt_of_ge (overflow_le_of_carried half))
    refine ⟨2 ^ 52, t + 1, ⟨by norm_num, by omega, by omega, Or.inl (le_refl _)⟩, ?_⟩
    have value : ((2 ^ 52 : Nat) : ℚ) * 2 ^ (t + 1) = n * 2 ^ t := by
      rw [carried, zpow_add_one₀ (by norm_num)]
      push_cast
      ring
    rw [value]
    exact half.trans part

/-- **A closest double is off by a part in `2^53` of the number**, in the normal range. -/
theorem Closest.relative (h : Closest (withSign negative r) x)
    (low : (2 : ℚ) ^ (-1022 : Int) ≤ r) (high : r ≤ largest) :
    |exact x - withSign negative r| ≤ r / 2 ^ 53 := by
  obtain ⟨m, e, c, near⟩ := exists_canonical_near low high
  obtain ⟨y, finite, value⟩ := exists_double negative c
  refine (h.closest y finite).trans ?_
  rwa [value, withSign_sub, abs_withSign]

/-! ### Multiples of the least double -/

/-- The value of a finite double is a multiple of the least one. -/
theorem exists_multiple (finite : x.isFinite = true) :
    ∃ k : Int, exact x * 2 ^ 1074 = k := by
  obtain ⟨negative, m, e, c, unpacked⟩ := exists_significand finite
  have least := c.least
  have exponent : e + (1074 : Nat) = ((e + (1074 : Nat)).toNat : Int) := by omega
  have multiple : (m : ℚ) * 2 ^ e * 2 ^ 1074 = (m * 2 ^ (e + (1074 : Nat)).toNat : Nat) := by
    rw [mul_assoc, ← two_zpow_add_nat, exponent, zpow_natCast]
    push_cast
    rfl
  rw [exact_of_unpack unpacked]
  cases negative with
  | false => exact ⟨(m * 2 ^ (e + (1074 : Nat)).toNat : Nat), multiple⟩
  | true =>
      refine ⟨-(m * 2 ^ (e + (1074 : Nat)).toNat : Nat), ?_⟩
      show -((m : ℚ) * 2 ^ e) * 2 ^ 1074 = _
      rw [neg_mul, multiple]
      push_cast
      rfl

/-- **No two doubles are a hundredth apart.** -/
theorem exact_ne_hundredth (hx : x.isFinite = true) (hy : y.isFinite = true) :
    exact x - exact y ≠ 1 / 100 := by
  intro apart
  obtain ⟨k, hk⟩ := exists_multiple hx
  obtain ⟨l, hl⟩ := exists_multiple hy
  generalize 1074 = bottom at hk hl
  have split : (100 : ℚ) * (k - l) = 2 ^ bottom := by
    rw [← hk, ← hl, ← sub_mul, apart]
    ring
  have whole : 5 * (20 * (k - l)) = 2 ^ bottom := by
    rw [← mul_assoc]
    exact_mod_cast split
  have five : (5 : Int) ∣ 2 ^ bottom := ⟨_, whole.symm⟩
  have := Int.prime_ofNat_iff.2 Nat.prime_five |>.dvd_of_dvd_pow five
  omega

end Double

end HeartKeypad
