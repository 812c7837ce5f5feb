import HeartKeypad.Proofs.Number.Nearest

/-!
# Decimals in doubles

A decimal literal is read as the double nearest to it: `Double.nearest_ofScientific`.

### Two ways to the same double

Where the digits and the power of ten are doubles themselves, one is divided by the other.
Otherwise the digits are divided as they are, with an exponent of zero.  Both ways end in one
division, which is computed with as many bits as rounding keeps and with what is left of the
fraction (`Double.full_divCore`), so it is rounded once (`Double.rounded_div`).
-/

namespace HeartKeypad

open Float.Model Float.Model.UnpackedFloat

namespace Double

variable {m n p : Nat} {e f : Int}

/-! ### Quotients -/

/-- A quotient is computed with all the bits that rounding keeps. -/
theorem full_divCore (hm : 0 < m) (hn : 0 < n) :
    Full (divCore Format.binary64 m e n f).1 (divCore Format.binary64 m e n f).2.1 := by
  rw [divCore, targetExponent_eq]
  dsimp only
  generalize target : min (e - f) (max (totalExponent m e - totalExponent n f - 53) (-1074)) = t
  by_cases bottom : t ≤ -1074
  · exact Or.inr bottom
  · left
    unfold totalExponent at target
    have shift : n.log2 + 1 + 52 ≤ m.log2 + (e - f - t).toNat := by omega
    generalize (e - f - t).toNat = k at *
    have many : 2 ^ 52 * n ≤ m <<< k := by
      calc 2 ^ 52 * n ≤ 2 ^ 52 * 2 ^ (n.log2 + 1) :=
            Nat.mul_le_mul_left _ (le_of_lt Nat.lt_log2_self)
        _ = 2 ^ (n.log2 + 1 + 52) := by rw [← Nat.pow_add, Nat.add_comm]
        _ ≤ 2 ^ (m.log2 + k) := Nat.pow_le_pow_right (by norm_num) shift
        _ ≤ m * 2 ^ k := by
          rw [Nat.pow_add]
          exact Nat.mul_le_mul_right _ (Nat.log2_self_le (Nat.ne_of_gt hm))
        _ = m <<< k := (Nat.shiftLeft_eq m k).symm
    have bits : 2 ^ 52 ≤ (m <<< k) / n := (Nat.le_div_iff_mul_le hn).2 many
    exact (Nat.le_log2 (by omega)).2 bits

/-- **A quotient is rounded** from the quotient of the numbers. -/
theorem rounded_div (s t : Sign) (hm : 0 < m) (hn : 0 < n) :
    Rounded (s / t) ((m * 2 ^ e : ℚ) / (n * 2 ^ f)) (Float.Model.pack
      (UnpackedFloat.div Format.binary64 (.finite s m e hm) (.finite t n f hn))).unpack := by
  have full := full_divCore (e := e) (f := f) hm hn
  rw [UnpackedFloat.div]
  rw [divCore] at full ⊢
  dsimp only at full ⊢
  generalize target : min (e - f) _ = g at full ⊢
  have held := Holds.fraction (m <<< (e - f - g).toNat) hn
  have value : ((m <<< (e - f - g).toNat : Nat) / n : ℚ) * 2 ^ g = (m * 2 ^ e) / (n * 2 ^ f) := by
    have exponent : e = f + g + (e - f - g).toNat := by omega
    generalize (e - f - g).toNat = k at *
    rw [exponent, Nat.shiftLeft_eq, two_zpow_add_nat, zpow_add₀ (by norm_num)]
    have unit := (two_zpow_pos f).ne'
    have some : (n : ℚ) ≠ 0 := by exact_mod_cast Nat.ne_of_gt hn
    field_simp
    push_cast
    ring
  rw [← value]
  exact rounded_round (s / t) held full

/-! ### Natural numbers -/

/-- A natural number of 53 bits has a canonical significand. -/
theorem canonical_nat (h : 0 < n) (small : n < 2 ^ 53) :
    Canonical (n * 2 ^ (52 - n.log2)) (-(52 - n.log2 : Nat)) := by
  have high := (Nat.log2_lt (Nat.ne_of_gt h)).2 small
  refine ⟨?_, by omega, by omega, Or.inl ?_⟩
  · calc n * 2 ^ (52 - n.log2) < 2 ^ (n.log2 + 1) * 2 ^ (52 - n.log2) :=
          Nat.mul_lt_mul_of_pos_right Nat.lt_log2_self (Nat.two_pow_pos _)
      _ = 2 ^ 53 := by
        rw [← Nat.pow_add]
        congr 1
        omega
  · calc 2 ^ 52 = 2 ^ n.log2 * 2 ^ (52 - n.log2) := by
          rw [← Nat.pow_add]
          congr 1
          omega
      _ ≤ n * 2 ^ (52 - n.log2) :=
        Nat.mul_le_mul_right _ (Nat.log2_self_le (Nat.ne_of_gt h))

theorem mul_two_pow_neg (n k : Nat) : ((n * 2 ^ k : Nat) : ℚ) * 2 ^ (-k : Int) = n := by
  rw [zpow_neg, zpow_natCast]
  push_cast
  field_simp

/-- A natural number of 53 bits is a double. -/
theorem exists_canonical_nat (small : n < 2 ^ 53) :
    ∃ k g, Canonical k g ∧ (k : ℚ) * 2 ^ g = n := by
  rcases Nat.eq_zero_or_pos n with rfl | pos
  · exact ⟨0, -1074, canonical_zero, by rw [Nat.cast_zero, zero_mul]⟩
  · exact ⟨_, _, canonical_nat pos small, mul_two_pow_neg n _⟩

/-- A word of 53 bits is taken over without loss. -/
theorem unpack_toFloat (h : 0 < n) (small : n < 2 ^ 53) : ∃ (k : Nat) (hk : 0 < n * 2 ^ k),
    n.toUInt64.toFloat.toModel.unpack = .finite .positive (n * 2 ^ k) (-k) hk := by
  have word : n.toUInt64.toNat = n := by
    rw [UInt64.toNat_ofNat']
    omega
  have c := canonical_nat h small
  have pos : 0 < n * 2 ^ (52 - n.log2) := Nat.mul_pos h (Nat.two_pow_pos _)
  refine ⟨52 - n.log2, pos, ?_⟩
  have rounded := round_canonical .positive pos c 0
  rw [Nat.pow_zero, Nat.mul_one, Int.natCast_zero, Int.sub_zero] at rounded
  have target : (0 - Format.binary64.targetExponent (totalExponent n 0)).toNat = 52 - n.log2 := by
    have high := (Nat.log2_lt (Nat.ne_of_gt h)).2 small
    rw [targetExponent_eq, totalExponent]
    omega
  show (Float.Model.pack (UnpackedFloat.ofInt _ n.toUInt64.toNat)).unpack = _
  rw [word, UnpackedFloat.ofInt, UnpackedFloat.normalize,
    compare_gt_iff_gt.2 (Int.natCast_pos.2 h)]
  show (Float.Model.pack (round _ _ (n : Int).toNat 0)).unpack = _
  rw [Int.toNat_natCast, UnpackedFloat.round, decreaseExponent]
  dsimp only
  rw [target, Nat.shiftLeft_eq, Int.zero_sub, rounded]
  exact unpack_pack_canonical .positive pos c

/-! ### Literals -/

/-- The unpacked double is a power of ten. -/
def IsPowerOfTen (p : Nat) : UnpackedFloat → Bool
  | .finite .positive n f _ => n * 2 ^ f.toNat == 10 ^ p * 2 ^ (-f).toNat
  | _ => false

theorem isPowerOfTen_table : ∀ q : Fin Float.exactlyRepresentablePowersOfTen.size,
    IsPowerOfTen q Float.exactlyRepresentablePowersOfTen[q].toModel.unpack = true := by
  decide

/-- The powers of ten up to the twenty-second are doubles themselves. -/
theorem unpack_powerOfTen (h : p < Float.exactlyRepresentablePowersOfTen.size) :
    ∃ (n : Nat) (f : Int) (hn : 0 < n), (n * 2 ^ f : ℚ) = 10 ^ p ∧
      Float.exactlyRepresentablePowersOfTen[p].toModel.unpack = .finite .positive n f hn := by
  have power : IsPowerOfTen p Float.exactlyRepresentablePowersOfTen[p].toModel.unpack = true :=
    isPowerOfTen_table ⟨p, h⟩
  generalize Float.exactlyRepresentablePowersOfTen[p].toModel.unpack = u at *
  unfold IsPowerOfTen at power
  split at power
  · rename_i n f hn
    refine ⟨n, f, hn, ?_, rfl⟩
    have same : (n : ℚ) * 2 ^ f.toNat = 10 ^ p * 2 ^ (-f).toNat := by
      exact_mod_cast beq_iff_eq.1 power
    rw [two_pow_toNat, ← mul_assoc] at same
    exact mul_right_cancel₀ (pow_ne_zero _ (by norm_num)) same
  · cases power

theorem Holds.self (m : Nat) : Holds m m .exact := rfl

theorem nearest_zero (s : Sign) : Nearest s 0 (.zero s) := by
  refine ⟨0, -1074, canonical_zero, rfl, fun k g _ => ?_⟩
  rw [Nat.cast_zero, zero_mul, sub_self, abs_zero]
  exact abs_nonneg _

/-- Few digits and a small power of ten are doubles themselves, and are divided. -/
theorem nearest_of_few (hp : p < 23) (few : m < 2 ^ 53) (small : (m / 10 ^ p : ℚ) ≤ largest) :
    Nearest .positive (m / 10 ^ p) (Float.Model.pack (UnpackedFloat.div Format.binary64
      m.toUInt64.toFloat.toModel.unpack
      Float.exactlyRepresentablePowersOfTen[p].toModel.unpack)).unpack := by
  obtain ⟨n, f, hn, value, power⟩ := unpack_powerOfTen (p := p) hp
  rw [power, ← value]
  rcases Nat.eq_zero_or_pos m with rfl | hm
  · have none : (Nat.toUInt64 0).toFloat.toModel.unpack = .zero .positive := by rfl
    rw [Nat.cast_zero, zero_div, none]
    show Nearest _ _ (Float.Model.pack (.zero .positive)).unpack
    rw [unpack_pack_zero]
    exact nearest_zero .positive
  · obtain ⟨k, hk, unpacked⟩ := unpack_toFloat hm few
    have whole := (mul_two_pow_neg m k).symm
    rw [← value, whole] at small
    rw [unpacked, whole]
    exact (rounded_div .positive .positive hk hn).nearest small

/-- Many digits are rounded together with the power of ten. -/
theorem nearest_of_many (hp : p < 23) (many : 2 ^ 53 ≤ m)
    (small : (m / 10 ^ p : ℚ) ≤ largest) : Nearest .positive (m / 10 ^ p)
      (Float.Model.pack (UnpackedFloat.ofScientific Format.binary64 m (Int.negOfNat p))).unpack := by
  have hm : m ≠ 0 := by omega
  have exponents : (2 : Int) ^ Format.binary64.exponentBits = 2048 := by decide
  have exponent : Int.negOfNat p = -(p : Int) := Int.negOfNat_eq
  rw [UnpackedFloat.ofScientific, dif_neg hm, exponent, exponents, if_neg (by omega),
    if_neg (by omega)]
  rcases Nat.eq_zero_or_pos p with rfl | pos
  · -- nothing to divide by
    rw [pow_zero, div_one] at small ⊢
    have bits : Format.binary64.mantissaBits = 53 := by decide
    rw [if_pos (by omega), UnpackedFloat.mul]
    generalize Format.binary64.mantissaBits = b at *
    have full : Full (m <<< b * 10 ^ (-(0 : Nat) : Int).toNat) (-b + 0) := by
      left
      show 52 ≤ (m <<< b * 1).log2
      rw [Nat.shiftLeft_eq, mul_one, log2_mul_two_pow hm]
      omega
    have value :
        (m : ℚ) = (m <<< b * 10 ^ (-(0 : Nat) : Int).toNat : Nat) * 2 ^ (-b + 0 : Int) := by
      show (m : ℚ) = (m <<< b * 1 : Nat) * 2 ^ (-b + 0 : Int)
      rw [Nat.shiftLeft_eq, mul_one, add_zero, zpow_neg, zpow_natCast]
      push_cast
      field_simp
    rw [value] at small ⊢
    exact (rounded_round _ (Holds.self _) full).nearest small
  · rw [if_neg (by omega)]
    have digits : (m : ℚ) = m * 2 ^ (0 : Int) := by rw [zpow_zero, mul_one]
    have power : (10 ^ p : ℚ) = (10 ^ (- -(p : Int)).toNat : Nat) * 2 ^ (0 : Int) := by
      rw [neg_neg, Int.toNat_natCast, zpow_zero, mul_one, Nat.cast_pow, Nat.cast_ofNat]
    rw [digits, power] at small ⊢
    exact (rounded_div .positive .positive (Nat.pos_of_ne_zero hm) _).nearest small

/-- **A decimal literal is the double nearest** to the decimal. -/
theorem nearest_ofScientific (hp : p < 23) (small : (m / 10 ^ p : ℚ) ≤ largest) :
    Nearest .positive (m / 10 ^ p) (Float.ofScientific m true p).toModel.unpack := by
  unfold Float.ofScientific
  split
  · rename_i few
    exact nearest_of_few hp few.1 small
  · rename_i many
    exact nearest_of_many hp (by omega) small

end Double

end HeartKeypad
