import HeartKeypad.Proofs.Number.Decimal
import HeartKeypad.Proofs.Number.Order

/-!
# Rounded arithmetic

The sum, the difference, the product and the quotient of finite doubles are the exact ones,
rounded: they are doubles closest to them, or infinities where there is none large enough.

* `Double.Rounds` — a double is closest to a number, or the infinity on its side.
* `Double.rounds_add`, `Double.rounds_sub`, `Double.rounds_mul`, `Double.rounds_div` — the
  operations round the exact results.
* `Double.Rounds.le`, `Double.Rounds.ge` — rounding crosses no double.
* `Double.closest_ofNat` — natural numbers are rounded, too.

### Why one rounding is enough

Sums are computed with the smaller of both exponents and products with all their bits, so that
nothing is lost before the result is rounded.  What is left of a quotient is remembered in
its accuracy (`Double.rounded_div`).
-/

namespace HeartKeypad

open Float.Model Float.Model.UnpackedFloat

namespace Double

variable {m n : Nat} {e f : Int} {r q : ℚ} {x y z : Float} {negative other : Bool}

/-! ### Unpacked results -/

/-- A significand whose exponent is decreased has all the bits that rounding keeps. -/
theorem full_decreaseExponent (h : 0 < m) (e : Int) :
    Full (decreaseExponent m e (Format.binary64.targetExponent (totalExponent m e))).1
      (decreaseExponent m e (Format.binary64.targetExponent (totalExponent m e))).2 := by
  rw [decreaseExponent, targetExponent_eq, totalExponent]
  dsimp only
  rw [Nat.shiftLeft_eq, Full, log2_mul_two_pow (Nat.ne_of_gt h)]
  omega

/-- **A number is rounded** from any significand and exponent. -/
theorem rounded_of_round (s : Sign) (h : 0 < m) (e : Int) :
    Rounded s (m * 2 ^ e) (Float.Model.pack (round Format.binary64 s m e)).unpack := by
  have full := full_decreaseExponent h e
  rw [UnpackedFloat.round]
  generalize Format.binary64.targetExponent (totalExponent m e) = t at *
  rw [decreaseExponent] at full ⊢
  dsimp only at full ⊢
  have value : (m : ℚ) * 2 ^ e = (m <<< (e - t).toNat : Nat) * 2 ^ (e - (e - t).toNat) := by
    generalize (e - t).toNat = k
    have split := two_zpow_add_nat (e - k) k
    rw [sub_add_cancel] at split
    rw [split, Nat.shiftLeft_eq]
    push_cast
    ring
  rw [value]
  exact rounded_round s (Holds.self _) full

/-- **A product is rounded** from the product of the numbers. -/
theorem rounded_mul (s t : Sign) (hm : 0 < m) (hn : 0 < n) (c : Canonical m e)
    (d : Canonical n f) : Rounded (s * t) (m * 2 ^ e * (n * 2 ^ f)) (Float.Model.pack
      (UnpackedFloat.mul Format.binary64 (.finite s m e hm) (.finite t n f hn))).unpack := by
  have full : Full (m * n) (e + f) := by
    have nonzero : m * n ≠ 0 := Nat.mul_ne_zero (Nat.ne_of_gt hm) (Nat.ne_of_gt hn)
    rcases c.full with many | rfl
    · exact Or.inl ((Nat.le_log2 nonzero).2 (le_trans many (Nat.le_mul_of_pos_right m hn)))
    · rcases d.full with many | rfl
      · exact Or.inl ((Nat.le_log2 nonzero).2 (le_trans many (Nat.le_mul_of_pos_left n hm)))
      · exact Or.inr (by norm_num)
  have value : (m : ℚ) * 2 ^ e * (n * 2 ^ f) = (m * n : Nat) * 2 ^ (e + f) := by
    rw [zpow_add₀ (by norm_num)]
    push_cast
    ring
  rw [value]
  exact rounded_round (s * t) (Holds.self _) full

/-! ### Signs -/

theorem signOf_mul (negative other : Bool) :
    signOf negative * signOf other = signOf (negative ^^ other) := by
  cases negative <;> cases other <;> rfl

theorem signOf_div (negative other : Bool) :
    signOf negative / signOf other = signOf (negative ^^ other) := by
  cases negative <;> cases other <;> rfl

theorem withSign_mul (negative other : Bool) (r q : ℚ) :
    withSign negative r * withSign other q = withSign (negative ^^ other) (r * q) := by
  cases negative <;> cases other <;> simp [withSign]

theorem withSign_div (negative other : Bool) (r q : ℚ) :
    withSign negative r / withSign other q = withSign (negative ^^ other) (r / q) := by
  cases negative <;> cases other <;> simp [withSign, neg_div, div_neg]

theorem apply_signOf (negative : Bool) (k : Nat) :
    (((signOf negative).apply k : Int) : ℚ) = withSign negative k := by
  cases negative with
  | false => exact Int.cast_natCast k
  | true => exact (Int.cast_neg _).trans (congrArg Neg.neg (Int.cast_natCast k))

/-! ### Rounded numbers -/

/-- **A double is a rounded number**: a closest one to it, or the infinity on its side where the
number is beyond the largest finite double by half a unit. -/
inductive Rounds (r : ℚ) (x : Float) : Prop
  | closest (h : Closest r x) (small : |r| ≤ overflow)
  | above (large : overflow ≤ r) (unpacked : x.toModel.unpack = .infinity .positive)
  | below (large : r ≤ -overflow) (unpacked : x.toModel.unpack = .infinity .negative)

theorem Closest.self (hx : x.isFinite = true) : Closest (exact x) x := by
  refine ⟨hx, fun y _ => ?_⟩
  rw [sub_self, abs_zero]
  exact abs_nonneg _

theorem largest_pos : 0 < largest := lt_of_lt_of_le (by norm_num) two_pow_le_largest

/-- The value of a double is no larger than the largest one; without a value it counts as zero. -/
theorem abs_exact_le_largest (x : Float) : |exact x| ≤ largest := by
  cases finite : x.isFinite with
  | true =>
      obtain ⟨negative, m, e, c, unpacked⟩ := exists_significand finite
      rw [exact_of_unpack unpacked, abs_withSign, abs_of_nonneg (magnitude_nonneg m e)]
      exact c.le_largest
  | false =>
      rw [← Dyadic.isSome_ofFloat?, Option.isSome_eq_false_iff, Option.isNone_iff_eq_none] at finite
      rw [exact, finite]
      exact abs_zero.trans_le largest_pos.le

/-- A finite double rounds its own value. -/
theorem Rounds.of_exact (hx : x.isFinite = true) (value : exact x = r) : Rounds r x :=
  value ▸ .closest (Closest.self hx) ((abs_exact_le_largest x).trans largest_lt_overflow.le)

/-- A rounded magnitude with the sign of the number rounds it. -/
theorem Rounded.rounds (h : Rounded (signOf negative) r x.toModel.unpack) (nonneg : 0 ≤ r) :
    Rounds (withSign negative r) x := by
  rcases h with ⟨nearest, small⟩ | ⟨large, unpacked⟩
  · exact .closest (nearest.closest nonneg) (by rwa [abs_withSign, abs_of_nonneg nonneg])
  · cases negative with
    | false => exact .above large unpacked
    | true => exact .below (neg_le_neg large) unpacked

theorem isFinite_of_zero {s : Sign} (h : x.toModel.unpack = .zero s) : x.isFinite = true := by
  show x.toModel.unpack.isFinite = true
  rw [h]
  rfl

theorem exact_of_zero {s : Sign} (h : x.toModel.unpack = .zero s) : exact x = 0 := by
  have unpacked : x.toModel.unpack = ofSignificand (signOf (s == .negative)) 0 0 := by
    rw [h]
    cases s <;> rfl
  rw [exact_of_unpack unpacked, Nat.cast_zero, zero_mul, withSign_zero]

/-- A zero rounds zero, whatever its sign is. -/
theorem Rounds.of_zero {s : Sign} (h : x.toModel.unpack = .zero s) : Rounds 0 x :=
  .of_exact (isFinite_of_zero h) (exact_of_zero h)

/-! ### The operations -/

/-- A finite double is a zero, or has a sign and a canonical significand and exponent. -/
theorem zero_or_canonical (hx : x.isFinite = true) :
    (∃ s, x.toModel.unpack = .zero s ∧ exact x = 0) ∨
    ∃ negative m e, ∃ h : 0 < m, Canonical m e ∧
      x.toModel.unpack = .finite (signOf negative) m e h ∧
      exact x = withSign negative (m * 2 ^ e) := by
  obtain ⟨negative, m, e, c, unpacked⟩ := exists_significand hx
  rcases Nat.eq_zero_or_pos m with rfl | pos
  · have zero : x.toModel.unpack = .zero (signOf negative) := unpacked
    exact Or.inl ⟨_, zero, exact_of_zero zero⟩
  · exact Or.inr ⟨negative, m, e, pos, c, by rw [unpacked, ofSignificand_pos _ pos],
      exact_of_unpack unpacked⟩

/-- **A product of doubles rounds the product** of their values. -/
theorem rounds_mul (hx : x.isFinite = true) (hy : y.isFinite = true) :
    Rounds (exact x * exact y) (x * y) := by
  have product : (x * y).toModel.unpack = (Float.Model.pack (UnpackedFloat.mul Format.binary64
    x.toModel.unpack y.toModel.unpack)).unpack := rfl
  rcases zero_or_canonical hx with ⟨s, unpackedX, valueX⟩ | ⟨negative, m, e, hm, c, unpackedX,
    valueX⟩ <;> rcases zero_or_canonical hy with ⟨t, unpackedY, valueY⟩ | ⟨other, n, f, hn, d,
    unpackedY, valueY⟩ <;> rw [unpackedX, unpackedY] at product <;> rw [valueX, valueY]
  · rw [zero_mul]
    exact .of_zero (product.trans (unpack_pack_zero _))
  · rw [zero_mul]
    exact .of_zero (product.trans (unpack_pack_zero _))
  · rw [mul_zero]
    exact .of_zero (product.trans (unpack_pack_zero _))
  · rw [withSign_mul]
    refine Rounded.rounds ?_ (mul_nonneg (magnitude_nonneg m e) (magnitude_nonneg n f))
    rw [product, ← signOf_mul]
    exact rounded_mul _ _ hm hn c d

/-- **A quotient of doubles rounds the quotient** of their values, unless the divisor is zero. -/
theorem rounds_div (hx : x.isFinite = true) (hy : y.isFinite = true) (nonzero : exact y ≠ 0) :
    Rounds (exact x / exact y) (x / y) := by
  have quotient : (x / y).toModel.unpack = (Float.Model.pack (UnpackedFloat.div Format.binary64
    x.toModel.unpack y.toModel.unpack)).unpack := rfl
  rcases zero_or_canonical hy with ⟨t, -, zero⟩ | ⟨other, n, f, hn, d, unpackedY, valueY⟩
  · exact absurd zero nonzero
  rcases zero_or_canonical hx with ⟨s, unpackedX, valueX⟩ | ⟨negative, m, e, hm, c, unpackedX,
    valueX⟩ <;> rw [unpackedX, unpackedY] at quotient <;> rw [valueX]
  · rw [zero_div]
    exact .of_zero (quotient.trans (unpack_pack_zero _))
  · rw [valueY, withSign_div]
    refine Rounded.rounds ?_ (div_nonneg (magnitude_nonneg m e) (magnitude_nonneg n f))
    rw [quotient, ← signOf_div]
    exact rounded_div _ _ hm hn

/-- The value of a significand does not change with its exponent. -/
theorem signed_decreaseExponent (negative : Bool) (m : Nat) {t : Int} (coarse : t ≤ e) :
    (((signOf negative).apply (decreaseExponent m e t).1 : Int) : ℚ) * 2 ^ t =
      withSign negative (m * 2 ^ e) := by
  have exponent : e = t + (e - t).toNat := by omega
  have value : ((decreaseExponent m e t).1 : ℚ) * 2 ^ t = m * 2 ^ e := by
    rw [decreaseExponent]
    dsimp only
    generalize (e - t).toNat = k at *
    rw [exponent, two_zpow_add_nat, Nat.shiftLeft_eq]
    push_cast
    ring
  rw [apply_signOf, ← value]
  cases negative with
  | false => rfl
  | true => exact neg_mul _ _

/-- A double that is rounded from a sign, a significand and an exponent rounds their value. -/
theorem rounds_of_round (negative : Bool) (pos : 0 < m) (h : x.toModel.unpack =
    (Float.Model.pack (round Format.binary64 (signOf negative) m e)).unpack) :
    Rounds (withSign negative (m * 2 ^ e)) x := by
  refine Rounded.rounds ?_ (magnitude_nonneg m e)
  rw [h]
  exact rounded_of_round _ pos e

/-- A signed significand is rounded from its value. -/
theorem rounds_normalize {k : Int} (h : x.toModel.unpack =
    (Float.Model.pack (UnpackedFloat.normalize Format.binary64 k e .positive)).unpack) :
    Rounds (k * 2 ^ e) x := by
  rcases lt_trichotomy k 0 with less | rfl | greater
  · rw [UnpackedFloat.normalize, compare_lt_iff_lt.2 less] at h
    obtain ⟨n, rfl⟩ := Int.exists_eq_neg_ofNat less.le
    have size : (- -(n : Int)).toNat = n := by omega
    dsimp only at h
    rw [size] at h
    rw [Int.cast_neg, Int.cast_natCast, neg_mul]
    exact rounds_of_round true (by omega) h
  · rw [Int.cast_zero, zero_mul]
    exact .of_zero (h.trans (unpack_pack_zero _))
  · rw [UnpackedFloat.normalize, compare_gt_iff_gt.2 greater] at h
    obtain ⟨n, rfl⟩ := Int.eq_ofNat_of_zero_le greater.le
    dsimp only at h
    rw [Int.toNat_natCast] at h
    rw [Int.cast_natCast]
    exact rounds_of_round false (by omega) h

/-- Doubles that are the same up to the sign of a zero have the same value. -/
theorem Alike.exact_eq (h : Alike x y) : exact x = exact y := by
  rw [Alike] at h
  generalize left : x.toModel.unpack = u, right : y.toModel.unpack = w at h
  cases h with
  | same => rw [eq_of_unpack_eq (left.trans right.symm)]
  | zeros s t => rw [exact_of_zero left, exact_of_zero right]

/-- **A sum of doubles rounds the sum** of their values. -/
theorem rounds_add (hx : x.isFinite = true) (hy : y.isFinite = true) :
    Rounds (exact x + exact y) (x + y) := by
  have sum : (x + y).toModel.unpack = (Float.Model.pack (UnpackedFloat.add Format.binary64
    x.toModel.unpack y.toModel.unpack)).unpack := rfl
  rcases zero_or_canonical hx with ⟨s, unpackedX, valueX⟩ | ⟨negative, m, e, hm, c, unpackedX,
    valueX⟩
  · -- adding to a zero leaves the double alone, up to the sign of a zero
    have alike : Alike (x + y) y := by
      have agree := (Agree.zero_add s y.toModel.unpack).pack
      rwa [← unpackedX, ← sum, unpack_pack_unpack] at agree
    rw [valueX, zero_add]
    exact .of_exact (alike.isFinite ▸ hy) alike.exact_eq
  · rcases zero_or_canonical hy with ⟨t, unpackedY, valueY⟩ | ⟨other, n, f, hn, d,
      unpackedY, valueY⟩ <;> rw [unpackedX, unpackedY] at sum
    · have same : x + y = x := by
        refine eq_of_unpack_eq (sum.trans ?_)
        show (Float.Model.pack (.finite (signOf negative) m e hm)).unpack = _
        rw [← unpackedX, unpack_pack_unpack]
      rw [valueY, add_zero, same]
      exact .of_exact hx rfl
    · rw [valueX, valueY]
      have value := congrArg₂ (· + ·)
        (signed_decreaseExponent negative m (min_le_left e f))
        (signed_decreaseExponent other n (min_le_right e f))
      rw [← value, ← add_mul, ← Int.cast_add]
      exact rounds_normalize sum

theorem exact_neg (hx : x.isFinite = true) : exact (-x) = -exact x := by
  obtain ⟨negative, m, e, c, unpacked⟩ := exists_significand hx
  have turned : (-x).toModel.unpack = ofSignificand (signOf (!negative)) m e := by
    rw [unpack_neg, unpacked, ofSignificand, ofSignificand]
    split <;> cases negative <;> rfl
  rw [exact_of_unpack turned, exact_of_unpack unpacked]
  cases negative with
  | false => rfl
  | true => exact (neg_neg _).symm

/-- Subtracting is adding with the sign turned, to the bit. -/
theorem sub_eq_add_turned (x y : Float) : x - y = x + -y := by
  refine eq_of_unpack_eq ?_
  show (Float.Model.pack (UnpackedFloat.sub Format.binary64 x.toModel.unpack
    y.toModel.unpack)).unpack = (Float.Model.pack (UnpackedFloat.add Format.binary64
    x.toModel.unpack (-y).toModel.unpack)).unpack
  rw [unpack_neg, sub_eq_add_neg_unpacked]

/-- **A difference of doubles rounds the difference** of their values. -/
theorem rounds_sub (hx : x.isFinite = true) (hy : y.isFinite = true) :
    Rounds (exact x - exact y) (x - y) := by
  have sum := rounds_add hx (isFinite_neg hy)
  rwa [exact_neg hy, ← sub_eq_add_turned, ← sub_eq_add_neg] at sum

/-- **Multiplying by one changes nothing**, to the bit. -/
theorem mul_one_eq (x : Float) : x * 1.0 = x := by
  have one : (1.0 : Float).toModel.unpack =
      .finite .positive 4503599627370496 (-52) (by decide) := by rfl
  refine eq_of_unpack_eq ?_
  show (Float.Model.pack (UnpackedFloat.mul _ x.toModel.unpack
    (1.0 : Float).toModel.unpack)).unpack = x.toModel.unpack
  rw [one]
  cases hx : x.toModel.unpack with
  | notANumber => rfl
  | infinity s => cases s <;> rfl
  | zero s => cases s <;> rfl
  | finite s m e h =>
      have product : UnpackedFloat.mul Format.binary64 (.finite s m e h)
          (.finite .positive 4503599627370496 (-52) (by decide)) = .finite s m e h := by
        have sign : s * Sign.positive = s := by cases s <;> rfl
        have scaled := round_canonical s h (canonical_of_unpack hx) 52
        rw [UnpackedFloat.mul, sign]
        exact scaled
      rw [product, ← hx, unpack_pack_unpack]

/-- **Factors may change places**, to the bit. -/
theorem mul_comm_eq (x y : Float) : x * y = y * x := by
  refine eq_of_unpack_eq ?_
  show (Float.Model.pack (UnpackedFloat.mul _ x.toModel.unpack y.toModel.unpack)).unpack =
    (Float.Model.pack (UnpackedFloat.mul _ y.toModel.unpack x.toModel.unpack)).unpack
  have sign (s t : Sign) : s * t = t * s := by cases s <;> cases t <;> rfl
  cases x.toModel.unpack <;> cases y.toModel.unpack <;>
    simp only [UnpackedFloat.mul, sign, Nat.mul_comm, Int.add_comm]

theorem one_mul_eq (x : Float) : 1.0 * x = x := by
  rw [mul_comm_eq, mul_one_eq]

/-! ### Rounding crosses no double -/

theorem Closest.exact_le (h : Closest r x) (hz : z.isFinite = true) (below : r ≤ exact z) :
    exact x ≤ exact z := by
  by_contra greater
  have closer := h.closest z hz
  rw [abs_of_nonneg (by linarith), abs_of_nonneg (by linarith)] at closer
  linarith

theorem Closest.le_exact (h : Closest r x) (hz : z.isFinite = true) (above : exact z ≤ r) :
    exact z ≤ exact x := by
  by_contra less
  have closer := h.closest z hz
  rw [abs_of_nonpos (by linarith), abs_of_nonpos (by linarith)] at closer
  linarith

theorem Closest.nonneg (h : Closest r x) (nonneg : 0 ≤ r) : 0 ≤ exact x := by
  rw [← exact_zero] at nonneg ⊢
  exact h.le_exact isFinite_zero nonneg

theorem Closest.nonpos (h : Closest r x) (nonpos : r ≤ 0) : exact x ≤ 0 := by
  rw [← exact_zero] at nonpos ⊢
  exact h.exact_le isFinite_zero nonpos

/-- Closest doubles are ordered as the numbers. -/
theorem Closest.exact_le_exact (h : Closest r x) (h' : Closest q y) (less : r < q) :
    exact x ≤ exact y := by
  by_contra greater
  have apart : 0 < exact x - exact y := by linarith
  -- the middle of the two doubles would lie below the one and above the other number
  have left := sq_le_sq.2 (h.closest y h'.finite)
  have right := sq_le_sq.2 (h'.closest x h.finite)
  have low : exact x + exact y ≤ 2 * r := by
    refine le_of_mul_le_mul_left ?_ apart
    linarith
  have high : 2 * q ≤ exact x + exact y := by
    refine le_of_mul_le_mul_left ?_ apart
    linarith
  linarith

/-- Nothing is below minus infinity. -/
theorem le_of_infinite (h : x.toModel.unpack = .infinity .negative) (hz : z.isFinite = true) :
    x ≤ z ∧ ¬ z ≤ x := by
  change z.toModel.unpack.isFinite = true at hz
  show decide (UnpackedFloat.le x.toModel.unpack z.toModel.unpack = true) = true ∧
    ¬ decide (UnpackedFloat.le z.toModel.unpack x.toModel.unpack = true) = true
  rw [h]
  generalize z.toModel.unpack = w at hz
  cases w with
  | notANumber => cases hz
  | infinity s => cases hz
  | zero s => exact ⟨rfl, Bool.false_ne_true⟩
  | finite s m e pos => exact ⟨rfl, Bool.false_ne_true⟩

/-- **A number up to a finite double is not rounded to anything above it.** -/
theorem Rounds.le (h : Rounds r x) (hz : z.isFinite = true) (below : r ≤ exact z) : x ≤ z := by
  have bound := abs_le.1 (abs_exact_le_largest z)
  have beyond := largest_lt_overflow
  cases h with
  | closest h _ => exact (le_iff h.finite hz).2 (h.exact_le hz below)
  | above large _ => linarith
  | below _ unpacked => exact (le_of_infinite unpacked hz).1

/-- **A number from a finite double on is not rounded to anything below it.** -/
theorem Rounds.ge (h : Rounds r x) (hz : z.isFinite = true) (above : exact z ≤ r) : z ≤ x := by
  have bound := abs_le.1 (abs_exact_le_largest z)
  have beyond := largest_lt_overflow
  cases h with
  | closest h _ => exact (le_iff hz h.finite).2 (h.le_exact hz above)
  | below large _ => linarith
  | above _ unpacked =>
      show decide (UnpackedFloat.le z.toModel.unpack x.toModel.unpack = true) = true
      rw [unpacked]
      change z.toModel.unpack.isFinite = true at hz
      generalize z.toModel.unpack = w at hz
      cases w <;> first | rfl | cases hz

/-- Up to the largest finite double the rounded number is closest. -/
theorem Rounds.closest_of_abs_lt (h : Rounds r x) (small : |r| < overflow) : Closest r x := by
  have bound := abs_lt.1 small
  cases h with
  | closest h _ => exact h
  | above large _ => linarith
  | below large _ => linarith

theorem Rounds.closest_of_abs_le (h : Rounds r x) (small : |r| ≤ largest) : Closest r x :=
  h.closest_of_abs_lt (small.trans_lt largest_lt_overflow)

/-- A finite rounded number is closest. -/
theorem Rounds.closest_of_isFinite (h : Rounds r x) (hx : x.isFinite = true) :
    Closest r x ∧ |r| ≤ overflow := by
  change x.toModel.unpack.isFinite = true at hx
  cases h with
  | closest h small => exact ⟨h, small⟩
  | above _ unpacked => rw [unpacked] at hx; cases hx
  | below _ unpacked => rw [unpacked] at hx; cases hx

/-! ### Infinities -/

/-- Packing keeps minus infinity. -/
theorem unpack_pack_infinity :
    (Float.Model.pack (.infinity .negative)).unpack = .infinity .negative := by rfl

theorem add_infinite (h : x.toModel.unpack = .infinity .negative) (hy : y.isFinite = true) :
    (x + y).toModel.unpack = .infinity .negative := by
  show (Float.Model.pack (UnpackedFloat.add _ x.toModel.unpack y.toModel.unpack)).unpack = _
  change y.toModel.unpack.isFinite = true at hy
  rw [h]
  generalize y.toModel.unpack = w at hy
  cases w <;> first | exact unpack_pack_infinity | cases hy

theorem sub_infinite (hx : x.isFinite = true) (h : y.toModel.unpack = .infinity .positive) :
    (x - y).toModel.unpack = .infinity .negative := by
  show (Float.Model.pack (UnpackedFloat.sub _ x.toModel.unpack y.toModel.unpack)).unpack = _
  change x.toModel.unpack.isFinite = true at hx
  rw [h]
  generalize x.toModel.unpack = w at hx
  cases w <;> first | exact unpack_pack_infinity | cases hx

theorem div_infinite {h : 0 < m} (infinite : x.toModel.unpack = .infinity .negative)
    (hy : y.toModel.unpack = .finite .positive m e h) :
    (x / y).toModel.unpack = .infinity .negative := by
  show (Float.Model.pack (UnpackedFloat.div _ x.toModel.unpack y.toModel.unpack)).unpack = _
  rw [infinite, hy]
  exact unpack_pack_infinity

/-! ### Numbers and their doubles -/

/-- Finite doubles are equal iff their values are. -/
theorem beq_iff (hx : x.isFinite = true) (hy : y.isFinite = true) :
    (x == y) = true ↔ exact x = exact y := by
  show UnpackedFloat.beq x.toModel.unpack y.toModel.unpack = true ↔ _
  rw [UnpackedFloat.beq, compare_eq hx hy, beq_iff_eq, Option.some_inj, compare_eq_iff_eq]

theorem two_zpow_le_largest {t : Int} (small : t ≤ 1023) : (2 : ℚ) ^ t ≤ largest := by
  have top : (2 : ℚ) ^ (1023 : Int) = 2 ^ 52 * 2 ^ (971 : Int) := by
    rw [← zpow_natCast, ← zpow_add₀ (by norm_num)]
    norm_num
  have unit := two_zpow_pos 971
  calc (2 : ℚ) ^ t ≤ 2 ^ (1023 : Int) := zpow_le_zpow_right₀ (by norm_num) small
    _ = 2 ^ 52 * 2 ^ (971 : Int) := top
    _ ≤ largest := mul_le_mul_of_nonneg_right (by norm_num) unit.le

/-- A word of 53 bits is a double of the same value. -/
theorem exact_toFloat (small : n < 2 ^ 53) :
    n.toUInt64.toFloat.isFinite = true ∧ exact n.toUInt64.toFloat = n := by
  rcases Nat.eq_zero_or_pos n with rfl | pos
  · have zero : (Nat.toUInt64 0).toFloat.toModel.unpack = .zero .positive := by rfl
    exact ⟨isFinite_of_zero zero, (exact_of_zero zero).trans Nat.cast_zero.symm⟩
  · obtain ⟨k, hk, unpacked⟩ := unpack_toFloat pos small
    have value : n.toUInt64.toFloat.toModel.unpack =
        ofSignificand (signOf false) (n * 2 ^ k) (-k) := by
      rw [unpacked, ofSignificand_pos _ hk]
      rfl
    refine ⟨?_, (exact_of_unpack value).trans (mul_two_pow_neg n k)⟩
    show n.toUInt64.toFloat.toModel.unpack.isFinite = true
    rw [unpacked]
    rfl

theorem exact_one : exact 1.0 = 1 := by
  have unpacked : (1.0 : Float).toModel.unpack =
    ofSignificand (signOf false) 4503599627370496 (-52) := by rfl
  rw [exact_of_unpack unpacked]
  norm_num [withSign]

/-- **A natural number is rounded to a closest double.** -/
theorem closest_ofNat (small : (n : ℚ) ≤ largest) : Closest n (Float.ofNat n) := by
  show Closest n (Float.ofScientific n false 0)
  unfold Float.ofScientific
  split
  · rename_i few
    obtain ⟨finite, value⟩ := exact_toFloat few.1
    have product := rounds_mul finite (y := 1.0) (by decide)
    rw [value, exact_one, mul_one] at product
    refine product.closest_of_abs_le ?_
    rwa [abs_of_nonneg (Nat.cast_nonneg n)]
  · rename_i many
    have value : (n / 10 ^ 0 : ℚ) = n := by rw [pow_zero, div_one]
    have nearest := nearest_of_many (m := n) (p := 0) (by norm_num) (by omega) (by rwa [value])
    rw [value] at nearest
    have closest : Closest (withSign false n) _ := Nearest.closest nearest (Nat.cast_nonneg n)
    exact closest

/-- A natural number of 53 bits is a double itself. -/
theorem exact_ofNat (few : n < 2 ^ 53) :
    (Float.ofNat n).isFinite = true ∧ exact (Float.ofNat n) = n := by
  have small : (n : ℚ) ≤ 2 ^ 53 := by exact_mod_cast few.le
  have closest := closest_ofNat (small.trans two_pow_le_largest)
  obtain ⟨finite, value⟩ := exact_toFloat few
  exact ⟨closest.finite, closest.exact_eq finite value⟩

theorem exact_two : exact 2.0 = 2 := by
  have two : (2.0 : Float) = Float.ofNat 2 := by decide
  rw [two, (exact_ofNat (by norm_num)).2, Nat.cast_ofNat]

theorem exact_four : exact 4.0 = 4 := by
  have four : (4.0 : Float) = Float.ofNat 4 := by decide
  rw [four, (exact_ofNat (by norm_num)).2, Nat.cast_ofNat]

theorem exact_five : exact 5.0 = 5 := by
  have five : (5.0 : Float) = Float.ofNat 5 := by decide
  rw [five, (exact_ofNat (by norm_num)).2, Nat.cast_ofNat]

end Double

end HeartKeypad
