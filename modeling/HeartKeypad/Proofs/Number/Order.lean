import HeartKeypad.Proofs.Number.Exact

/-!
# The order of doubles

Doubles are compared by sign, exponent and significand.  For finite ones this is the order of
their exact values, and the value tells the double, unless it is zero.

* `Double.compare_eq` — finite doubles compare as their exact values do.
* `Double.le_iff`, `Double.lt_iff` — so the orders agree.
* `Double.eq_of_exact_eq` — a double that is no zero is the only one with its value.

### Why exponents come first

Of two canonical significands the one with the larger exponent has all its bits, and so lies
above every significand with a smaller exponent (`Double.Canonical.lt_of_exponent_lt`).
-/

namespace HeartKeypad

open Float.Model Float.Model.UnpackedFloat

namespace Double

variable {x y : Float} {m k : Nat} {e g : Int}

/-! ### The bits of a double -/

/-- A double is told by what it unpacks to. -/
theorem eq_of_unpack_eq (same : x.toModel.unpack = y.toModel.unpack) : x = y := by
  have packed (z : Float) : z = .ofModel (Float.Model.pack z.toModel.unpack) := by
    rcases z with ⟨⟨bits, valid⟩⟩
    rw [Float.ofModel.injEq, Float.Model.mk.injEq, ← UInt64.toBitVec_inj]
    exact (pack_unpack_of_valid valid).symm
  rw [packed x, same, ← packed y]

/-- Multiplying by `-1` is turning the sign, to the bit. -/
theorem neg_one_mul_eq (x : Float) : -1.0 * x = -x :=
  eq_of_unpack_eq ((mirror_neg_one_mul x).trans (unpack_neg x).symm)

/-! ### Magnitudes -/

theorem magnitude_nonneg (m : Nat) (e : Int) : (0 : ℚ) ≤ m * 2 ^ e :=
  mul_nonneg (Nat.cast_nonneg m) (two_zpow_pos e).le

theorem magnitude_pos (h : 0 < m) (e : Int) : (0 : ℚ) < m * 2 ^ e :=
  mul_pos (by exact_mod_cast h) (two_zpow_pos e)

/-- **A smaller exponent makes a smaller number**, whatever the significands are. -/
theorem Canonical.lt_of_exponent_lt (c : Canonical m e) (d : Canonical k g) (less : e < g) :
    (m : ℚ) * 2 ^ e < k * 2 ^ g := by
  have least := c.least
  have bits : (m : ℚ) < 2 ^ 53 := by exact_mod_cast c.bits
  have full : (2 : ℚ) ^ 52 ≤ k := by exact_mod_cast d.full.resolve_right (by omega)
  have next : (2 : ℚ) ^ (e + 1 : Int) ≤ 2 ^ g := zpow_le_zpow_right₀ (by norm_num) less
  rw [zpow_add_one₀ (by norm_num)] at next
  calc (m : ℚ) * 2 ^ e < 2 ^ 53 * 2 ^ e := mul_lt_mul_of_pos_right bits (two_zpow_pos e)
    _ = 2 ^ 52 * (2 ^ e * 2) := by ring
    _ ≤ 2 ^ 52 * 2 ^ g := mul_le_mul_of_nonneg_left next (by norm_num)
    _ ≤ k * 2 ^ g := mul_le_mul_of_nonneg_right full (two_zpow_pos g).le

/-- Multiples of one unit compare as their factors. -/
theorem compare_mul_unit (m k : Nat) (e : Int) :
    compare m k = compare ((m : ℚ) * 2 ^ e) (k * 2 ^ e) := by
  have scaled {i j : Nat} (less : i < j) : (i : ℚ) * 2 ^ e < j * 2 ^ e :=
    mul_lt_mul_of_pos_right (by exact_mod_cast less) (two_zpow_pos e)
  rcases lt_trichotomy m k with less | rfl | greater
  · rw [compare_lt_iff_lt.2 less, compare_lt_iff_lt.2 (scaled less)]
  · rw [compare_eq_iff_eq.2 rfl, compare_eq_iff_eq.2 rfl]
  · rw [compare_gt_iff_gt.2 greater, compare_gt_iff_gt.2 (scaled greater)]

/-- Canonical significands compare by their exponents first. -/
theorem Canonical.compare_eq (c : Canonical m e) (d : Canonical k g) :
    (compare e g).then (compare m k) = compare ((m : ℚ) * 2 ^ e) (k * 2 ^ g) := by
  rcases lt_trichotomy e g with less | rfl | greater
  · rw [compare_lt_iff_lt.2 less, compare_lt_iff_lt.2 (c.lt_of_exponent_lt d less)]
    rfl
  · rw [compare_eq_iff_eq.2 rfl]
    exact compare_mul_unit m k e
  · rw [compare_gt_iff_gt.2 greater, compare_gt_iff_gt.2 (d.lt_of_exponent_lt c greater)]
    rfl

/-! ### Values -/

theorem compare_neg (r q : ℚ) : compare (-r) (-q) = (compare r q).swap := by
  rcases lt_trichotomy r q with less | rfl | greater
  · rw [compare_lt_iff_lt.2 less, compare_gt_iff_gt.2 (neg_lt_neg less)]
    rfl
  · rw [compare_eq_iff_eq.2 rfl, compare_eq_iff_eq.2 rfl]
    rfl
  · rw [compare_gt_iff_gt.2 greater, compare_lt_iff_lt.2 (neg_lt_neg greater)]
    rfl

/-- The comparison of unpacked doubles goes by sign, exponent and significand in turn. -/
theorem compare_ofSignificand (c : Canonical m e) (d : Canonical k g) (negative other : Bool) :
    UnpackedFloat.compare (ofSignificand (signOf negative) m e) (ofSignificand (signOf other) k g) =
      some (compare (withSign negative (m * 2 ^ e)) (withSign other (k * 2 ^ g))) := by
  have below {n : Nat} (f : Int) (h : 0 < n) : withSign true (n * 2 ^ f) < 0 :=
    neg_neg_of_pos (magnitude_pos h f)
  rcases Nat.eq_zero_or_pos m with rfl | hm
  · rw [Nat.cast_zero, zero_mul, withSign_zero]
    rcases Nat.eq_zero_or_pos k with rfl | hk
    · rw [Nat.cast_zero, zero_mul, withSign_zero, compare_eq_iff_eq.2 rfl]
      rfl
    · rw [ofSignificand_pos _ hk]
      cases other with
      | false => exact congrArg some (compare_lt_iff_lt.2 (magnitude_pos hk g)).symm
      | true => exact congrArg some (compare_gt_iff_gt.2 (below g hk)).symm
  rw [ofSignificand_pos _ hm]
  rcases Nat.eq_zero_or_pos k with rfl | hk
  · rw [Nat.cast_zero, zero_mul, withSign_zero]
    cases negative with
    | false => exact congrArg some (compare_gt_iff_gt.2 (magnitude_pos hm e)).symm
    | true => exact congrArg some (compare_lt_iff_lt.2 (below e hm)).symm
  rw [ofSignificand_pos _ hk]
  cases negative with
  | false =>
      cases other with
      | false => exact congrArg some (c.compare_eq d)
      | true =>
          have order := (below g hk).trans (magnitude_pos hm e)
          exact congrArg some (compare_gt_iff_gt.2 order).symm
  | true =>
      cases other with
      | false =>
          have order := (below e hm).trans (magnitude_pos hk g)
          exact congrArg some (compare_lt_iff_lt.2 order).symm
      | true =>
          refine congrArg some ?_
          show ((compare e g).then (compare m k)).swap = compare (-_) (-_)
          rw [compare_neg, c.compare_eq d]

/-- **Finite doubles compare as their exact values do.** -/
theorem compare_eq (hx : x.isFinite = true) (hy : y.isFinite = true) :
    UnpackedFloat.compare x.toModel.unpack y.toModel.unpack =
      some (compare (exact x) (exact y)) := by
  obtain ⟨negative, m, e, c, unpackedX⟩ := exists_significand hx
  obtain ⟨other, k, g, d, unpackedY⟩ := exists_significand hy
  rw [exact_of_unpack unpackedX, exact_of_unpack unpackedY, unpackedX, unpackedY]
  exact compare_ofSignificand c d negative other

theorem lt_iff (hx : x.isFinite = true) (hy : y.isFinite = true) :
    x < y ↔ exact x < exact y := by
  show decide (UnpackedFloat.lt x.toModel.unpack y.toModel.unpack = true) = true ↔ _
  rw [decide_eq_true_iff, UnpackedFloat.lt, compare_eq hx hy, beq_iff_eq, Option.some_inj,
    compare_lt_iff_lt]

theorem le_iff (hx : x.isFinite = true) (hy : y.isFinite = true) :
    x ≤ y ↔ exact x ≤ exact y := by
  show decide (UnpackedFloat.le x.toModel.unpack y.toModel.unpack = true) = true ↔ _
  rw [decide_eq_true_iff, UnpackedFloat.le, compare_eq hx hy, Option.any_some,
    Ordering.isLE_iff_ne_gt, ← ne_eq, compare_le_iff_le]

theorem exact_zero : exact 0 = 0 := by
  have unpacked : (0 : Float).toModel.unpack = ofSignificand (signOf false) 0 0 := by rfl
  rw [exact_of_unpack unpacked, Nat.cast_zero, zero_mul, withSign_zero]

theorem isFinite_zero : (0 : Float).isFinite = true := by decide

/-- A double lies above zero iff its value does. -/
theorem pos_iff (hx : x.isFinite = true) : 0 < x ↔ 0 < exact x := by
  rw [lt_iff isFinite_zero hx, exact_zero]

/-- **A double that is no zero is the only one with its value.** -/
theorem eq_of_exact_eq (hx : x.isFinite = true) (hy : y.isFinite = true)
    (nonzero : exact x ≠ 0) (same : exact x = exact y) : x = y := by
  obtain ⟨negative, m, e, c, unpackedX⟩ := exists_significand hx
  obtain ⟨other, k, g, d, unpackedY⟩ := exists_significand hy
  rw [exact_of_unpack unpackedX] at same nonzero
  rw [exact_of_unpack unpackedY] at same
  have hm := magnitude_nonneg m e
  have hk := magnitude_nonneg k g
  rcases Bool.eq_or_eq_not other negative with rfl | rfl
  · have magnitude : |withSign other ((m : ℚ) * 2 ^ e)| = |withSign other (k * 2 ^ g)| := by
      rw [same]
    rw [abs_withSign, abs_withSign, abs_of_nonneg hm, abs_of_nonneg hk] at magnitude
    obtain ⟨rfl, rfl⟩ := c.eq_of_mul_eq d magnitude
    exact eq_of_unpack_eq (unpackedX.trans unpackedY.symm)
  · -- on the other side of zero there is nothing but zero
    have apart := abs_withSign_sub_not negative hk hm
    rw [← same, sub_self, abs_zero] at apart
    have none : (m : ℚ) * 2 ^ e = 0 := by linarith
    rw [none, withSign_zero] at nonzero
    exact absurd rfl nonzero

end Double

end HeartKeypad
