import HeartKeypad.Proofs.Number.Negation
import Mathlib

/-!
# The nearest double

Rounding leaves the sign alone and takes the double nearest to the exact number.

* `Double.Holds` — the numbers that a significand with an accuracy stands for.
* `Double.Nearest` — an unpacked double that no other finite one is closer to a number.
* `Double.rounded_round` — what rounding and packing leave of a number is nearest to it, or an
  infinity where the number is beyond the largest finite double.

### Why two shifts find it

The first shift keeps the number and drops bits of the significand only, so that rounding to
a whole significand goes half a unit of the last place at most (`Double.Holds.near`).  A
double with a larger exponent is a multiple of that unit too; one with a smaller exponent
lies below the least significand with all bits, and so on the other side of one that was
already too far (`Double.abs_sub_le_of_canonical`).  The second shift drops a zero.
-/

namespace HeartKeypad

open Float.Model Float.Model.UnpackedFloat

namespace Double

/-! ### A significand and what lies behind it -/

/-- **What a significand and an accuracy stand for**: the significand itself, or a number
behind it and before the next one, of which is known how it lies to the middle. -/
def Holds (m : Nat) (x : ℚ) : Accuracy → Prop
  | .exact => x = m
  | .inexact .lt => m < x ∧ x < m + 1 / 2
  | .inexact .eq => x = m + 1 / 2
  | .inexact .gt => m + 1 / 2 < x ∧ x < m + 1

namespace Holds

variable {m : Nat} {x : ℚ} {a : Accuracy}

theorem floor (h : Holds m x a) : (m : ℚ) ≤ x ∧ x < m + 1 := by
  rcases a with _ | o
  · rw [Holds] at h
    constructor <;> linarith
  · cases o <;> rw [Holds] at h <;> constructor <;> linarith

/-- Rounding to even goes half a unit at most. -/
theorem near (h : Holds m x a) : |(a.roundToNearestEven m : ℚ) - x| ≤ 1 / 2 := by
  rcases a with _ | o
  · rw [Holds] at h
    rw [Accuracy.roundToNearestEven, h, sub_self, abs_zero]
    norm_num
  · cases o with
    | lt =>
        rw [Accuracy.roundToNearestEven, abs_le]
        rw [Holds] at h
        constructor <;> linarith
    | eq =>
        have parity : (m : ℚ) ≤ (m + m % 2 : Nat) ∧ ((m + m % 2 : Nat) : ℚ) ≤ m + 1 := by
          constructor
          · exact_mod_cast Nat.le_add_right m (m % 2)
          · exact_mod_cast Nat.add_le_add_left (Nat.le_of_lt_succ (Nat.mod_lt m Nat.two_pos)) m
        rw [Accuracy.roundToNearestEven, abs_le]
        rw [Holds] at h
        constructor <;> linarith
    | gt =>
        rw [Accuracy.roundToNearestEven, abs_le]
        rw [Holds] at h
        push_cast
        constructor <;> linarith

/-- A quotient and its remainder stand for the fraction. -/
theorem fraction (n : Nat) {d : Nat} (hd : 0 < d) :
    Holds (n / d) (n / d : ℚ) (accuracyOfFraction (n % d) d) := by
  have split : (n : ℚ) = d * (n / d : Nat) + (n % d : Nat) := by
    exact_mod_cast (Nat.div_add_mod n d).symm
  have below : ((n % d : Nat) : ℚ) < d := by exact_mod_cast Nat.mod_lt n hd
  have pos : (0 : ℚ) < d := by exact_mod_cast hd
  have whole : (n / d : ℚ) = (n / d : Nat) + (n % d : Nat) / d := by
    rw [split]
    field_simp
  rw [whole]
  generalize n / d = q at *
  unfold accuracyOfFraction
  by_cases zero : n % d = 0
  · rw [if_pos zero, zero, Holds]
    simp
  rw [if_neg zero]
  have some : (0 : ℚ) < (n % d : Nat) := by exact_mod_cast Nat.pos_of_ne_zero zero
  have quotient : (0 : ℚ) < (n % d : Nat) / d ∧ ((n % d : Nat) : ℚ) / d < 1 :=
    ⟨div_pos some pos, (div_lt_one pos).2 below⟩
  cases o : compare (2 * (n % d)) d with
  | lt =>
      have half : (2 : ℚ) * (n % d : Nat) < d := by exact_mod_cast Nat.compare_eq_lt.1 o
      have less : ((n % d : Nat) : ℚ) / d < 1 / 2 := by
        rw [div_lt_iff₀ pos]
        linarith
      rw [Holds]
      constructor <;> linarith
  | eq =>
      have half : (2 : ℚ) * (n % d : Nat) = d := by exact_mod_cast Nat.compare_eq_eq.1 o
      have same : ((n % d : Nat) : ℚ) / d = 1 / 2 := by
        rw [div_eq_iff (ne_of_gt pos)]
        linarith
      rw [Holds, same]
  | gt =>
      have half : (d : ℚ) < 2 * (n % d : Nat) := by exact_mod_cast Nat.compare_eq_gt.1 o
      have more : 1 / 2 < ((n % d : Nat) : ℚ) / d := by
        rw [lt_div_iff₀ pos]
        linarith
      rw [Holds]
      constructor <;> linarith

/-- Where both bits are off, the significand is the number. -/
theorem eq_of_bits {em : ExtendedMantissa} (h : Holds em.mantissa x em.accuracy)
    (off : (em.roundBit || em.stickyBit) = false) : x = em.mantissa := by
  rcases em with ⟨m, r, t⟩
  obtain ⟨rfl, rfl⟩ := Bool.or_eq_false_iff.1 off
  exact h

/-- Where one of them is on, the number lies behind the significand. -/
theorem lt_of_bits {em : ExtendedMantissa} (h : Holds em.mantissa x em.accuracy)
    (on : (em.roundBit || em.stickyBit) = true) : (em.mantissa : ℚ) < x := by
  rcases em with ⟨m, r, t⟩
  cases r <;> cases t <;> rw [ExtendedMantissa.accuracy, Holds] at h
  · cases on
  · exact h.1
  · rw [h]
    linarith
  · linarith

/-- Shifting a bit out halves the number. -/
theorem shiftRightOne {em : ExtendedMantissa} (h : Holds em.mantissa x em.accuracy) :
    Holds em.shiftRightOne.mantissa (x / 2) em.shiftRightOne.accuracy := by
  have high := h.floor.2
  have split : (em.mantissa : ℚ) = 2 * (em.mantissa / 2 : Nat) + (em.mantissa % 2 : Nat) := by
    exact_mod_cast (Nat.div_add_mod em.mantissa 2).symm
  rw [ExtendedMantissa.shiftRightOne]
  rcases Nat.mod_two_eq_zero_or_one em.mantissa with bit | bit <;> rw [bit] at split ⊢ <;>
    push_cast at split <;> cases behind : em.roundBit || em.stickyBit
  · have same := h.eq_of_bits behind
    show x / 2 = (em.mantissa / 2 : Nat)
    linarith
  · have more := h.lt_of_bits behind
    show ((em.mantissa / 2 : Nat) : ℚ) < x / 2 ∧ x / 2 < (em.mantissa / 2 : Nat) + 1 / 2
    constructor <;> linarith
  · have same := h.eq_of_bits behind
    show x / 2 = (em.mantissa / 2 : Nat) + 1 / 2
    linarith
  · have more := h.lt_of_bits behind
    show ((em.mantissa / 2 : Nat) : ℚ) + 1 / 2 < x / 2 ∧ x / 2 < (em.mantissa / 2 : Nat) + 1
    constructor <;> linarith

theorem shiftRight {em : ExtendedMantissa} (h : Holds em.mantissa x em.accuracy) (k : Nat) :
    Holds (em >>> k).mantissa (x / 2 ^ k) (em >>> k).accuracy := by
  induction k with
  | zero =>
      rw [pow_zero, div_one]
      exact h
  | succ k ih =>
      rw [pow_succ, ← div_div]
      exact ih.shiftRightOne

/-- Its bits are set from the accuracy, and tell it. -/
theorem start (h : Holds m x a) : Holds (ExtendedMantissa.ofMantissaAndAccuracy m a).mantissa x
    (ExtendedMantissa.ofMantissaAndAccuracy m a).accuracy := by
  rcases a with _ | o
  · exact h
  · cases o <;> exact h

end Holds

/-! ### The nearest double -/

/-- A significand with its exponent is full: it has the bits that rounding keeps, or lies at
the bottom of the exponents. -/
def Full (m : Nat) (e : Int) : Prop := 52 ≤ m.log2 ∨ e ≤ -1074

variable {m : Nat} {e t : Int} {x r : ℚ} {a : Accuracy}

theorem two_zpow_pos (t : Int) : (0 : ℚ) < 2 ^ t := zpow_pos (by norm_num) t

theorem two_zpow_add_nat (e : Int) (k : Nat) : (2 : ℚ) ^ (e + k) = 2 ^ e * 2 ^ k := by
  rw [zpow_add₀ (by norm_num), zpow_natCast]

theorem two_pow_toNat (t : Int) : (2 : ℚ) ^ t.toNat = 2 ^ t * 2 ^ (-t).toNat := by
  rw [← two_zpow_add_nat, ← zpow_natCast]
  congr 1
  omega

/-- Two natural numbers are at least a unit apart. -/
theorem one_le_abs_sub {n k : Nat} (h : n ≠ k) : (1 : ℚ) ≤ |(n : ℚ) - k| := by
  exact_mod_cast Int.one_le_abs (sub_ne_zero.2 (Nat.cast_injective.ne h : (n : Int) ≠ k))

/-- A multiple of a unit that is within half of it is the closest one. -/
theorem abs_sub_le_of_multiple {n : Nat} (near : |(n : ℚ) * 2 ^ t - r| ≤ 2 ^ t / 2) (k : Nat) :
    |(n : ℚ) * 2 ^ t - r| ≤ |k * 2 ^ t - r| := by
  have pos := two_zpow_pos t
  rcases eq_or_ne n k with rfl | other
  · exact le_refl _
  · -- another multiple is a unit away from this one
    have apart : (2 : ℚ) ^ t ≤ |(k : ℚ) * 2 ^ t - n * 2 ^ t| := by
      rw [← sub_mul, abs_mul, abs_of_pos pos]
      exact le_mul_of_one_le_left (le_of_lt pos) (one_le_abs_sub other.symm)
    have triangle := abs_sub_le ((k : ℚ) * 2 ^ t) r (n * 2 ^ t)
    rw [abs_sub_comm r] at triangle
    linarith

/-- A significand with less than the exponent lies below all that have it. -/
theorem Canonical.mul_le (c : Canonical m e) (finer : e < t) :
    (m : ℚ) * 2 ^ e ≤ 2 ^ 52 * 2 ^ t := by
  have bits : (m : ℚ) ≤ 2 ^ 53 := by exact_mod_cast le_of_lt c.bits
  have next : (2 : ℚ) ^ (e + 1 : Int) ≤ 2 ^ t := zpow_le_zpow_right₀ (by norm_num) (by omega)
  rw [zpow_add_one₀ (by norm_num)] at next
  calc (m : ℚ) * 2 ^ e ≤ 2 ^ 53 * 2 ^ e :=
        mul_le_mul_of_nonneg_right bits (le_of_lt (two_zpow_pos e))
    _ = 2 ^ 52 * (2 ^ e * 2) := by ring
    _ ≤ 2 ^ 52 * 2 ^ t := by linarith

/-- A multiple of a unit that is within half of it is closer than any double, if the number is
large enough for the unit. -/
theorem abs_sub_le_of_canonical {n : Nat} (near : |(n : ℚ) * 2 ^ t - r| ≤ 2 ^ t / 2)
    (large : 2 ^ 52 * (2 : ℚ) ^ t ≤ r ∨ t = -1074) (c : Canonical m e) :
    |(n : ℚ) * 2 ^ t - r| ≤ |m * 2 ^ e - r| := by
  by_cases coarse : t ≤ e
  · -- the double is a multiple of the unit itself
    have multiple := abs_sub_le_of_multiple near (m * 2 ^ (e - t).toNat)
    have whole : e = t + (e - t).toNat := by omega
    rw [whole, two_zpow_add_nat, mul_comm ((2 : ℚ) ^ t), ← mul_assoc]
    rwa [Nat.cast_mul, Nat.cast_pow, Nat.cast_ofNat] at multiple
  · -- the double lies below a multiple of the unit that is not above the number
    have least := c.least
    have bound : 2 ^ 52 * (2 : ℚ) ^ t ≤ r := large.resolve_right (by omega)
    have below := c.mul_le (Int.lt_of_not_ge coarse)
    have corner := abs_sub_le_of_multiple near (2 ^ 52)
    rw [Nat.cast_pow, Nat.cast_ofNat] at corner
    rw [abs_of_nonpos (sub_nonpos.2 bound)] at corner
    rw [abs_of_nonpos (sub_nonpos.2 (le_trans below bound))]
    linarith

/-! ### Rounding -/

/-- A shift to the target exponent keeps the number, and its significand has all its bits
unless it lies at the bottom of the exponents. -/
theorem holds_shift (h : Holds m x a) (full : Full m e) : ∃ y,
    Holds (shiftToTargetExponent Format.binary64 m e a).1.mantissa y
      (shiftToTargetExponent Format.binary64 m e a).1.accuracy ∧
    y * 2 ^ (shiftToTargetExponent Format.binary64 m e a).2 = x * 2 ^ e ∧
    (2 ^ 52 ≤ (shiftToTargetExponent Format.binary64 m e a).1.mantissa ∨
      (shiftToTargetExponent Format.binary64 m e a).2 = -1074) := by
  have exponent := shift_exponent m e a
  rw [shiftToTargetExponent, shiftToExponent] at exponent ⊢
  generalize (Format.binary64.targetExponent (totalExponent m e) - e).toNat = k at *
  dsimp only at *
  refine ⟨x / 2 ^ k, h.start.shiftRight k, ?_, ?_⟩
  · rw [two_zpow_add_nat, mul_comm ((2 : ℚ) ^ e), ← mul_assoc,
      div_mul_cancel₀ _ (pow_ne_zero k (by norm_num))]
  · unfold totalExponent at exponent
    by_cases bottom : e + k = -1074
    · exact Or.inr bottom
    · left
      have bits : m.log2 = 52 + k := by
        unfold Full at full
        omega
      have nonzero : m ≠ 0 := by
        rintro rfl
        rw [Nat.log2_zero] at bits
        omega
      have start : (ExtendedMantissa.ofMantissaAndAccuracy m a).mantissa = m := by
        rcases a with _ | o
        · rfl
        · cases o <;> rfl
      rw [shiftRight_mantissa, start, Nat.le_div_iff_mul_le (Nat.two_pow_pos k), ← Nat.pow_add,
        ← bits]
      exact Nat.log2_self_le nonzero

/-- A zero or a finite double, by its significand. -/
def ofSignificand (s : Sign) (m : Nat) (e : Int) : UnpackedFloat :=
  if h : m = 0 then .zero s else .finite s m e (Nat.pos_of_ne_zero h)

theorem ofSignificand_pos (s : Sign) (h : 0 < m) (e : Int) :
    ofSignificand s m e = .finite s m e h :=
  dif_neg (Nat.ne_of_gt h)

theorem canonical_zero : Canonical 0 (-1074) :=
  ⟨by norm_num, le_refl _, by norm_num, Or.inr rfl⟩

/-- A canonical significand and exponent are packed without loss. -/
theorem unpack_pack_canonical (s : Sign) (h : 0 < m) (c : Canonical m e) :
    (Float.Model.pack (.finite s m e h)).unpack = .finite s m e h := by
  have bias : Format.binary64.exponentBias = 1023 := by decide
  have bits := c.bits
  have least := c.least
  have most := c.most
  have room : ¬ 2 ^ 11 ≤ (e + (1023 : Nat) + (52 : Nat)).toNat + 1 := by omega
  rw [Float.Model.unpack, Float.Model.pack, UInt64.toBitVec_ofBitVec]
  delta UnpackedFloat.pack
  dsimp only
  rw [bias, if_neg room]
  have low : (BitVec.ofNat 52 m).toNat = m % 2 ^ 52 := BitVec.toNat_ofNat ..
  by_cases full : 2 ^ 52 ≤ m
  · -- the implicit bit stands for the first one, and the field for the others
    have field :
        (BitVec.ofNat 11 (e + (1023 : Nat) + (52 : Nat)).toNat).toNat = (e + 1075).toNat := by
      rw [BitVec.toNat_ofNat]
      omega
    rw [if_pos (by rw [c.log2_of_full full]; rfl), unpack_packComponents, ofFields, if_neg, if_neg]
    · refine finite_congr ?_ ?_
      · rw [toNat_implicit, low]
        omega
      · rw [field]
        omega
    · intro zero
      have := congrArg BitVec.toNat zero
      rw [field] at this
      have none : (0#11).toNat = 0 := rfl
      omega
    · intro top
      have := congrArg BitVec.toNat top
      rw [field] at this
      have all : (-1#11).toNat = 2047 := rfl
      omega
  · have bottom := c.full.resolve_left full
    have short : m.log2 + 1 ≠ Format.binary64.mantissaBits := by
      have := (Nat.log2_lt (Nat.ne_of_gt h)).2 (Nat.lt_of_not_le full)
      have width : Format.binary64.mantissaBits = 53 := rfl
      omega
    have nonzero : BitVec.ofNat 52 m ≠ 0#52 := by
      intro zero
      have := congrArg BitVec.toNat zero
      have none : (0#52).toNat = 0 := rfl
      omega
    rw [if_neg short, unpack_packComponents, ofFields, if_neg (by decide), if_pos rfl,
      dif_neg nonzero]
    refine finite_congr ?_ bottom.symm
    omega

/-- The largest of the finite doubles. -/
def largest : ℚ := (2 ^ 53 - 1) * 2 ^ (971 : Int)

theorem Canonical.le_largest (c : Canonical m e) : (m : ℚ) * 2 ^ e ≤ largest := by
  have bits : (m : ℚ) + 1 ≤ 2 ^ 53 := by exact_mod_cast c.bits
  exact mul_le_mul (le_sub_iff_add_le.2 bits) (zpow_le_zpow_right₀ (by norm_num) c.most)
    (le_of_lt (two_zpow_pos e)) (by norm_num)

theorem two_pow_le_largest : (2 : ℚ) ^ 53 ≤ largest := by
  have unit : (2 : ℚ) ^ (1 : Int) ≤ 2 ^ (971 : Int) :=
    zpow_le_zpow_right₀ (by norm_num) (by norm_num)
  rw [zpow_one] at unit
  unfold largest
  generalize (2 : ℚ) ^ (971 : Int) = u at *
  linarith

theorem le_roundedMantissa (em : ExtendedMantissa) : em.mantissa ≤ em.roundedMantissa := by
  rcases em with ⟨m, r, t⟩
  cases r <;> cases t <;>
    simp only [ExtendedMantissa.roundedMantissa, ExtendedMantissa.accuracy,
      Accuracy.roundToNearestEven] <;> omega

/-- A rounded significand may have carried into one bit more, which is dropped again. -/
theorem exists_carry (s : Sign) {em : ExtendedMantissa}
    (first : shiftToTargetExponent Format.binary64 m e a = (em, t))
    (least : -1074 ≤ t) (most : t ≤ 971) (few : em.roundedMantissa ≤ 2 ^ 53)
    (room : em.roundedMantissa = 2 ^ 53 → t ≤ 970)
    (bits : 2 ^ 52 ≤ em.roundedMantissa ∨ t = -1074) : ∃ n f, Canonical n f ∧
      roundWithAccuracy Format.binary64 s m e a = ofSignificand s n f ∧
      (n : ℚ) * 2 ^ f = em.roundedMantissa * 2 ^ t := by
  rcases Nat.eq_zero_or_pos em.roundedMantissa with none | pos
  · refine ⟨0, -1074, canonical_zero, ?_, by rw [none, Nat.cast_zero, zero_mul, zero_mul]⟩
    have zero : (shiftToTargetExponent Format.binary64 0 t .exact).1.mantissa = 0 := by
      rw [shiftToTargetExponent, shiftToExponent, shiftRight_mantissa]
      exact Nat.zero_div _
    rw [roundWithAccuracy, first]
    dsimp only
    rw [none]
    exact dif_pos zero
  rcases Nat.lt_or_eq_of_le few with short | carried
  · have c : Canonical em.roundedMantissa t := ⟨short, least, most, bits⟩
    have again := shift_canonical pos c 0
    rw [Nat.pow_zero, Nat.mul_one, Int.natCast_zero, Int.sub_zero] at again
    refine ⟨em.roundedMantissa, t, c, ?_, rfl⟩
    rw [ofSignificand_pos s pos]
    exact roundWithAccuracy_eq first again pos
  · have high := room carried
    have c : Canonical (2 ^ 52) (t + 1) :=
      ⟨by norm_num, by omega, by omega, Or.inl (le_refl _)⟩
    have again := shift_canonical (Nat.two_pow_pos 52) c 1
    have double : 2 ^ 52 * 2 ^ 1 = em.roundedMantissa := carried.symm
    rw [double, Int.natCast_one, Int.add_sub_cancel] at again
    refine ⟨2 ^ 52, t + 1, c, ?_, ?_⟩
    · rw [ofSignificand_pos s (Nat.two_pow_pos 52)]
      exact roundWithAccuracy_eq first again (Nat.two_pow_pos 52)
    · rw [carried, zpow_add_one₀ (by norm_num)]
      push_cast
      ring

/-- A canonical significand is packed without loss, zero or not. -/
theorem unpack_pack_ofSignificand (s : Sign) (c : Canonical m e) :
    (Float.Model.pack (ofSignificand s m e)).unpack = ofSignificand s m e := by
  unfold ofSignificand
  split
  · exact unpack_pack_zero s
  · exact unpack_pack_canonical s _ c

/-- **The nearest double** to a number with a sign: no finite double has a magnitude closer
to the number. -/
def Nearest (s : Sign) (r : ℚ) (u : UnpackedFloat) : Prop :=
  ∃ n f, Canonical n f ∧ u = ofSignificand s n f ∧
    ∀ k g, Canonical k g → |(n : ℚ) * 2 ^ f - r| ≤ |k * 2 ^ g - r|

/-- Half a unit of the last place above the largest finite double. -/
def overflow : ℚ := (2 ^ 53 - 1 / 2) * 2 ^ (971 : Int)

theorem overflow_eq : overflow = largest + 2 ^ (971 : Int) / 2 := by
  rw [overflow, largest]
  ring

theorem largest_lt_overflow : largest < overflow := by
  rw [overflow_eq]
  exact lt_add_of_pos_right _ (half_pos (two_zpow_pos 971))

/-- **A number is rounded** to a nearest double, or to an infinity beyond the largest one. -/
def Rounded (s : Sign) (r : ℚ) (u : UnpackedFloat) : Prop :=
  Nearest s r u ∧ r ≤ overflow ∨ overflow ≤ r ∧ u = .infinity s

theorem Rounded.nearest {r : ℚ} {s : Sign} {u : UnpackedFloat} (h : Rounded s r u)
    (small : r ≤ largest) : Nearest s r u := by
  rcases h with ⟨nearest, -⟩ | ⟨beyond, -⟩
  · exact nearest
  · exact absurd (lt_of_lt_of_le largest_lt_overflow beyond) (not_lt_of_ge small)

/-- A number whose full significand has too large an exponent is beyond the largest double. -/
theorem overflow_le_of_exponent {r : ℚ} {t : Int} (large : 2 ^ 52 * (2 : ℚ) ^ t ≤ r)
    (high : 972 ≤ t) : overflow ≤ r := by
  have top : (2 : ℚ) ^ (971 + 1 : Int) ≤ 2 ^ t := zpow_le_zpow_right₀ (by norm_num) (by omega)
  rw [zpow_add_one₀ (by norm_num)] at top
  have unit := two_zpow_pos 971
  unfold overflow
  generalize (2 : ℚ) ^ (971 : Int) = u at *
  linarith

/-- The exponent of a full significand, if the number is not above the largest finite double. -/
theorem exponent_le_of_large {r : ℚ} {t : Int} (large : 2 ^ 52 * (2 : ℚ) ^ t ≤ r)
    (small : r ≤ largest) : t ≤ 971 := by
  by_contra high
  have beyond := overflow_le_of_exponent large (by omega)
  exact absurd (small.trans_lt largest_lt_overflow) (not_lt_of_ge beyond)

/-- At the highest exponent, what is carried to a 54th bit is beyond the largest double. -/
theorem overflow_le_of_carried {r : ℚ}
    (half : |((2 ^ 53 : Nat) : ℚ) * 2 ^ (971 : Int) - r| ≤ 2 ^ (971 : Int) / 2) :
    overflow ≤ r := by
  have above := (abs_le.1 half).2
  rw [Nat.cast_pow, Nat.cast_ofNat] at above
  unfold overflow
  linarith

/-- Finite numbers with a larger exponent than a double can hold are packed to infinities. -/
theorem unpack_pack_of_large (s : Sign) (h : 0 < m) (large : 972 ≤ e) :
    (Float.Model.pack (.finite s m e h)).unpack = .infinity s := by
  have bias : Format.binary64.exponentBias = 1023 := by decide
  have full : 2 ^ 11 ≤ (e + (1023 : Nat) + (52 : Nat)).toNat + 1 := by omega
  rw [Float.Model.unpack, Float.Model.pack, UInt64.toBitVec_ofBitVec]
  delta UnpackedFloat.pack
  dsimp only
  rw [bias, if_pos full]
  exact unpack_packComponents s (-1#11) 0#52

/-- A rounded significand whose exponent is too large is packed to an infinity. -/
theorem unpack_round_of_large (s : Sign) {em : ExtendedMantissa}
    (first : shiftToTargetExponent Format.binary64 m e a = (em, t))
    (few : em.roundedMantissa ≤ 2 ^ 53) (many : 2 ^ 52 ≤ em.roundedMantissa)
    (large : 972 ≤ t ∨ t = 971 ∧ em.roundedMantissa = 2 ^ 53) :
    (Float.Model.pack (roundWithAccuracy Format.binary64 s m e a)).unpack = .infinity s := by
  have bits : em.roundedMantissa.log2 ≤ 53 := by
    have := (Nat.log2_lt (k := 54) (by omega)).2 (by omega : em.roundedMantissa < 2 ^ 54)
    omega
  have high : 972 ≤ (shiftToTargetExponent Format.binary64 em.roundedMantissa t .exact).2 := by
    rw [shift_exponent, totalExponent]
    rcases large with large | ⟨rfl, carried⟩
    · omega
    · rw [carried, Nat.log2_two_pow]
      omega
  -- the second shift drops one bit at most, so that some are left
  have some : 0 <
      (shiftToTargetExponent Format.binary64 em.roundedMantissa t .exact).1.mantissa := by
    rw [shiftToTargetExponent, shiftToExponent, shiftRight_mantissa]
    show 0 < em.roundedMantissa / 2 ^ _
    rw [targetExponent_eq, totalExponent]
    refine Nat.div_pos (le_trans (Nat.pow_le_pow_right (by norm_num) ?_) many)
      (Nat.two_pow_pos _)
    omega
  rw [roundWithAccuracy_eq first rfl some]
  exact unpack_pack_of_large s some high

/-- **Rounding rounds**: it gives the nearest double, or an infinity. -/
theorem rounded_round (s : Sign) (h : Holds m x a) (full : Full m e) : Rounded s (x * 2 ^ e)
    (Float.Model.pack (roundWithAccuracy Format.binary64 s m e a)).unpack := by
  obtain ⟨y, held, same, bits⟩ := holds_shift h full
  have least := shift_exponent m e a
  have few := shift_mantissa_lt m e a
  cases first : shiftToTargetExponent Format.binary64 m e a with
  | mk em t =>
  rw [first] at held same bits least few
  dsimp only at held same bits least few
  have pos := two_zpow_pos t
  have carried := le_trans (roundedMantissa_le em) few
  have half : |(em.roundedMantissa : ℚ) * 2 ^ t - x * 2 ^ e| ≤ 2 ^ t / 2 := by
    rw [← same, ← sub_mul, abs_mul, abs_of_pos pos, div_eq_inv_mul, inv_eq_one_div]
    exact mul_le_mul_of_nonneg_right held.near (le_of_lt pos)
  have large : 2 ^ 52 * (2 : ℚ) ^ t ≤ x * 2 ^ e ∨ t = -1074 := by
    refine bits.imp_left fun many => ?_
    have cast : (2 ^ 52 : ℚ) ≤ em.mantissa := by exact_mod_cast many
    rw [← same]
    exact mul_le_mul_of_nonneg_right (le_trans cast held.floor.1) (le_of_lt pos)
  have many := bits.imp_left fun many => le_trans many (le_roundedMantissa em)
  by_cases beyond : 972 ≤ t ∨ t = 971 ∧ em.roundedMantissa = 2 ^ 53
  · refine Or.inr ⟨?_, unpack_round_of_large s first carried (many.resolve_right (by omega)) beyond⟩
    rcases beyond with high | ⟨rfl, top⟩
    · exact overflow_le_of_exponent (large.resolve_right (by omega)) high
    · rw [top] at half
      exact overflow_le_of_carried half
  · obtain ⟨n, f, c, rounded, value⟩ :=
      exists_carry s first (by omega) (by omega) carried (by omega) many
    refine Or.inl ⟨⟨n, f, c, ?_, fun k g hk => ?_⟩, ?_⟩
    · rw [rounded]
      exact unpack_pack_ofSignificand s c
    · rw [value]
      exact abs_sub_le_of_canonical half large hk
    · -- the nearest double is half a unit away at most
      have below := (abs_le.1 half).1
      have unit : (2 : ℚ) ^ t ≤ 2 ^ (971 : Int) :=
        zpow_le_zpow_right₀ (by norm_num) (by omega)
      rw [← value] at below
      rw [overflow_eq]
      linarith [c.le_largest]

/-! ### Signs -/

/-- The sign of a number that is negative, or is not. -/
def signOf (negative : Bool) : Sign := if negative then .negative else .positive

theorem Nearest.neg {r : ℚ} {u : UnpackedFloat} {s : Sign} (h : Nearest s r u) :
    Nearest (-s) r u.neg := by
  obtain ⟨n, f, c, rfl, closest⟩ := h
  refine ⟨n, f, c, ?_, closest⟩
  unfold ofSignificand
  split <;> rfl

theorem Nearest.isFinite {r : ℚ} {u : UnpackedFloat} {s : Sign} (h : Nearest s r u) :
    u.isFinite = true := by
  obtain ⟨n, f, -, rfl, -⟩ := h
  unfold ofSignificand
  split <;> rfl

end Double

end HeartKeypad
