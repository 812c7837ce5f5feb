import HeartKeypad.Proofs.Number.Finite
import Mathlib

/-!
# Doubles with their sign turned

Multiplying by `-1` turns the sign of a double and does nothing else, and subtracting from
zero does the same, up to the sign of zero.  What a double is multiplied or divided by
afterwards leaves it so.

* `Double.Mirror` — one double is the other with its sign turned.
* `Double.Alike` — two doubles are the same, or both are zeros.
* `Double.Mirror.alike_zero_sub` — subtracting a double from zero is like its mirror.
* `Double.isFinite_of_add` and its likes — of a finite result the operands are finite, except
  for a divisor.

### Why nothing is rounded

A product by `-1` is rounded like any other.  The significand of `-1` is a power of two, so
the product has the bits of the other factor with zeros behind them, and a double that has
been unpacked is `Double.Canonical`: rounding shifts by exactly these zeros
(`Double.round_canonical`).  In every other operation the sign takes no part in the rounding.
-/

namespace HeartKeypad

open Float.Model Float.Model.UnpackedFloat

namespace Double

/-! ### Packing -/

/-- A double is packed again as it was. -/
theorem unpack_pack_unpack (x : Float) :
    (Float.Model.pack x.toModel.unpack).unpack = x.toModel.unpack := by
  rw [Float.Model.unpack, Float.Model.unpack, Float.Model.pack, UInt64.toBitVec_ofBitVec,
    pack_unpack_of_valid x.toModel.valid]

/-- Packed fields are unpacked again as they were. -/
theorem unpack_packComponents (s : Sign) (e : BitVec 11) (m : BitVec 52) :
    UnpackedFloat.unpack Format.binary64 (packComponents Format.binary64 s e m) =
      ofFields s e m := by
  rw [unpack_eq_ofFields, unpackSign_packComponents, Sign.ofBitVec_toBitVec,
    unpackExponent_packComponents, unpackMantissa_packComponents]

theorem ofFields_neg (s : Sign) (e : BitVec 11) (m : BitVec 52) :
    ofFields (-s) e m = (ofFields s e m).neg := by
  unfold ofFields
  split
  · split <;> rfl
  · split
    · split <;> rfl
    · rfl

/-- The sign of a packed double stands apart from the rest of it. -/
theorem unpack_pack_neg (u : UnpackedFloat) :
    (Float.Model.pack u.neg).unpack = (Float.Model.pack u).unpack.neg := by
  have turned (s : Sign) (e : BitVec 11) (m : BitVec 52) :
      UnpackedFloat.unpack Format.binary64 (packComponents Format.binary64 (-s) e m) =
        (UnpackedFloat.unpack Format.binary64 (packComponents Format.binary64 s e m)).neg := by
    rw [unpack_packComponents, unpack_packComponents, ofFields_neg]
  rw [Float.Model.unpack, Float.Model.pack, UInt64.toBitVec_ofBitVec, Float.Model.unpack,
    Float.Model.pack, UInt64.toBitVec_ofBitVec]
  cases u with
  | notANumber => rfl
  | infinity s => exact turned s _ _
  | zero s => exact turned s _ _
  | finite s m e h =>
      rw [UnpackedFloat.neg]
      delta UnpackedFloat.pack
      dsimp only
      split
      · exact turned s _ _
      · split
        · exact turned s _ _
        · exact turned s _ _

/-! ### Rounding -/

namespace Canonical

variable {m : Nat} {e : Int}

/-- Normal significands have their highest bit at the top. -/
theorem log2_of_full (c : Canonical m e) (full : 2 ^ 52 ≤ m) : m.log2 = 52 := by
  have nonzero : m ≠ 0 := by omega
  have high := (Nat.log2_lt nonzero).2 c.bits
  have low := (Nat.le_log2 nonzero).2 full
  omega

/-- The exponent is the one that rounding aims at. -/
theorem target (c : Canonical m e) (h : 0 < m) : max (totalExponent m e - 53) (-1074) = e := by
  have least := c.least
  unfold totalExponent
  rcases c.full with full | low
  · rw [c.log2_of_full full]
    omega
  · have high := (Nat.log2_lt (Nat.ne_of_gt h)).2 c.bits
    omega

end Canonical

theorem neg_mul_sign (s t : Sign) : -s * t = -(s * t) := by
  cases s <;> cases t <;> rfl

theorem neg_div_sign (s t : Sign) : -s / t = -(s / t) := by
  cases s <;> cases t <;> rfl

theorem roundWithAccuracy_neg (s : Sign) (m : Nat) (e : Int) (a : Accuracy) :
    roundWithAccuracy Format.binary64 (-s) m e a =
      (roundWithAccuracy Format.binary64 s m e a).neg := by
  unfold roundWithAccuracy
  dsimp only
  split <;> rfl

/-- The bits that a shift drops are zeros where the significand is a multiple. -/
theorem shiftRight_mul_two_pow (m k : Nat) :
    (ExtendedMantissa.ofMantissaAndAccuracy (m * 2 ^ k) .exact) >>> k =
      ExtendedMantissa.ofMantissaAndAccuracy m .exact := by
  induction k generalizing m with
  | zero => simp [HShiftRight.hShiftRight, Nat.repeat]
  | succ k ih =>
      have double : m * 2 ^ (k + 1) = m * 2 * 2 ^ k := by
        rw [Nat.pow_succ, Nat.mul_assoc, Nat.mul_comm 2]
      rw [double]
      show (ExtendedMantissa.ofMantissaAndAccuracy (m * 2 * 2 ^ k) .exact >>> k).shiftRightOne = _
      rw [ih]
      simp [ExtendedMantissa.ofMantissaAndAccuracy, ExtendedMantissa.shiftRightOne]

theorem log2_mul_two_pow {m : Nat} (h : m ≠ 0) (k : Nat) :
    (m * 2 ^ k).log2 = m.log2 + k := by
  induction k with
  | zero => simp
  | succ k ih =>
      have nonzero : m * 2 ^ k ≠ 0 := Nat.mul_ne_zero h (Nat.ne_of_gt (Nat.two_pow_pos k))
      have double : m * 2 ^ (k + 1) = 2 * (m * 2 ^ k) := by
        rw [Nat.pow_succ, Nat.mul_comm 2, Nat.mul_assoc]
      rw [double, Nat.log2_two_mul nonzero, ih]
      rfl

/-- A shift to the exponent of a canonical significand drops the zeros behind it. -/
theorem shift_canonical {m : Nat} {e : Int} (h : 0 < m) (c : Canonical m e) (k : Nat) :
    shiftToTargetExponent Format.binary64 (m * 2 ^ k) (e - k) .exact =
      (ExtendedMantissa.ofMantissaAndAccuracy m .exact, e) := by
  have total : totalExponent (m * 2 ^ k) (e - k) = totalExponent m e := by
    unfold totalExponent
    rw [log2_mul_two_pow (Nat.ne_of_gt h)]
    omega
  have amount : (e - (e - k)).toNat = k := by omega
  rw [shiftToTargetExponent, shiftToExponent, total, targetExponent_eq, c.target h, amount,
    shiftRight_mul_two_pow]
  congr 1
  omega

/-- Rounding is two shifts. -/
theorem roundWithAccuracy_eq {s : Sign} {m : Nat} {e : Int} {a : Accuracy}
    {first second : ExtendedMantissa × Int}
    (hf : shiftToTargetExponent Format.binary64 m e a = first)
    (hs : shiftToTargetExponent Format.binary64 first.1.roundedMantissa first.2 .exact = second)
    (pos : 0 < second.1.mantissa) :
    roundWithAccuracy Format.binary64 s m e a = .finite s second.1.mantissa second.2 pos := by
  subst hf hs
  exact dif_neg (Nat.ne_of_gt pos)

/-- **A canonical significand with zeros behind it is rounded to itself.** -/
theorem round_canonical (s : Sign) {m : Nat} {e : Int} (h : 0 < m) (c : Canonical m e)
    (k : Nat) :
    roundWithAccuracy Format.binary64 s (m * 2 ^ k) (e - k) .exact = .finite s m e h := by
  have again := shift_canonical h c 0
  rw [Nat.pow_zero, Nat.mul_one, Int.natCast_zero, Int.sub_zero] at again
  exact roundWithAccuracy_eq (shift_canonical h c k) again h

/-! ### Mirrored doubles -/

variable {x y z : Float}

/-- One double is the other with its sign turned. -/
def Mirror (x y : Float) : Prop := y.toModel.unpack = x.toModel.unpack.neg

theorem isFinite_neg_unpacked (u : UnpackedFloat) : u.neg.isFinite = u.isFinite := by
  cases u <;> rfl

theorem Mirror.isFinite (h : Mirror x y) : y.isFinite = x.isFinite := by
  show y.toModel.unpack.isFinite = x.toModel.unpack.isFinite
  rw [h, isFinite_neg_unpacked]

theorem apply_neg_sign (s : Sign) (m : Int) : (-s).apply m = -s.apply m := by
  cases s with
  | positive => rfl
  | negative => exact (Int.neg_neg m).symm

/-- Subtracting is adding with the sign turned. -/
theorem sub_eq_add_neg_unpacked (u v : UnpackedFloat) :
    UnpackedFloat.sub Format.binary64 u v = UnpackedFloat.add Format.binary64 u v.neg := by
  cases u <;> cases v <;>
    first
    | rfl
    | simp only [UnpackedFloat.neg, UnpackedFloat.sub, UnpackedFloat.add, apply_neg_sign,
        Int.sub_eq_add_neg]

theorem mul_neg_unpacked (u w : UnpackedFloat) :
    UnpackedFloat.mul Format.binary64 u.neg w =
      (UnpackedFloat.mul Format.binary64 u w).neg := by
  cases u <;> cases w <;>
    simp only [UnpackedFloat.neg, UnpackedFloat.mul, neg_mul_sign, roundWithAccuracy_neg]

theorem div_neg_unpacked (u w : UnpackedFloat) :
    UnpackedFloat.div Format.binary64 u.neg w =
      (UnpackedFloat.div Format.binary64 u w).neg := by
  cases u <;> cases w <;>
    simp only [UnpackedFloat.neg, UnpackedFloat.div, neg_div_sign, roundWithAccuracy_neg]

theorem Mirror.mul (h : Mirror x y) (z : Float) : Mirror (x * z) (y * z) := by
  show (Float.Model.pack (UnpackedFloat.mul _ y.toModel.unpack z.toModel.unpack)).unpack =
    (Float.Model.pack (UnpackedFloat.mul _ x.toModel.unpack z.toModel.unpack)).unpack.neg
  rw [h, mul_neg_unpacked, unpack_pack_neg]

theorem Mirror.div (h : Mirror x y) (z : Float) : Mirror (x / z) (y / z) := by
  show (Float.Model.pack (UnpackedFloat.div _ y.toModel.unpack z.toModel.unpack)).unpack =
    (Float.Model.pack (UnpackedFloat.div _ x.toModel.unpack z.toModel.unpack)).unpack.neg
  rw [h, div_neg_unpacked, unpack_pack_neg]

/-- **Multiplying by `-1` turns the sign.** -/
theorem mirror_neg_one_mul (x : Float) : Mirror x (-1.0 * x) := by
  have one : (-1.0 : Float).toModel.unpack =
      .finite .negative 4503599627370496 (-52) (by decide) := by rfl
  show (Float.Model.pack (UnpackedFloat.mul _ (-1.0 : Float).toModel.unpack
    x.toModel.unpack)).unpack = x.toModel.unpack.neg
  rw [one]
  cases hx : x.toModel.unpack with
  | notANumber => rfl
  | infinity s => cases s <;> rfl
  | zero s => cases s <;> rfl
  | finite s m e h =>
      have c := canonical_of_unpack hx
      have product : UnpackedFloat.mul Format.binary64
          (.finite .negative 4503599627370496 (-52) (by decide)) (.finite s m e h) =
          .finite (-s) m e h := by
        have sign : Sign.negative * s = -s := by cases s <;> rfl
        have scaled := round_canonical (-s) h c 52
        rw [UnpackedFloat.mul, sign, Nat.mul_comm, Int.add_comm]
        exact scaled
      have turned := unpack_pack_neg x.toModel.unpack
      rw [unpack_pack_unpack, hx] at turned
      rw [product]
      exact turned

/-! ### Alike doubles -/

/-- Two unpacked doubles are the same, or both are zeros. -/
inductive Agree : UnpackedFloat → UnpackedFloat → Prop
  | same (u : UnpackedFloat) : Agree u u
  | zeros (s t : Sign) : Agree (.zero s) (.zero t)

theorem unpack_pack_zero (s : Sign) : (Float.Model.pack (.zero s)).unpack = .zero s := by
  cases s <;> rfl

namespace Agree

variable {u w : UnpackedFloat}

theorem pack (h : Agree u w) : Agree (Float.Model.pack u).unpack (Float.Model.pack w).unpack := by
  cases h with
  | same => exact same _
  | zeros s t =>
      rw [unpack_pack_zero, unpack_pack_zero]
      exact zeros s t

theorem add (h : Agree u w) (v : UnpackedFloat) :
    Agree (UnpackedFloat.add Format.binary64 u v) (UnpackedFloat.add Format.binary64 w v) := by
  cases h with
  | same => exact same _
  | zeros s t =>
      cases v with
      | notANumber => exact same _
      | infinity r => exact same _
      | finite r m e h => exact same _
      | zero r => cases s <;> cases t <;> cases r <;> exact zeros _ _

theorem sub (h : Agree u w) (v : UnpackedFloat) :
    Agree (UnpackedFloat.sub Format.binary64 u v) (UnpackedFloat.sub Format.binary64 w v) := by
  rw [sub_eq_add_neg_unpacked, sub_eq_add_neg_unpacked]
  exact h.add v.neg

theorem zero_add (s : Sign) (v : UnpackedFloat) :
    Agree (UnpackedFloat.add Format.binary64 (.zero s) v) v := by
  cases v with
  | notANumber => exact same _
  | infinity r => exact same _
  | finite r m e h => exact same _
  | zero r => cases s <;> cases r <;> exact zeros _ _

theorem isFinite (h : Agree u w) : w.isFinite = u.isFinite := by
  cases h <;> rfl

end Agree

/-- **Two doubles are the same, or both are zeros.** -/
def Alike (x y : Float) : Prop := Agree x.toModel.unpack y.toModel.unpack

theorem Alike.add (h : Alike x y) (z : Float) : Alike (x + z) (y + z) :=
  (Agree.add h z.toModel.unpack).pack

theorem Alike.sub (h : Alike x y) (z : Float) : Alike (x - z) (y - z) :=
  (Agree.sub h z.toModel.unpack).pack

theorem Alike.isFinite (h : Alike x y) : y.isFinite = x.isFinite := Agree.isFinite h

/-- **Subtracting a double from zero is like turning its sign.** -/
theorem Mirror.alike_zero_sub (h : Mirror x y) (zero : z.toModel.unpack = .zero .positive) :
    Alike (z - x) y := by
  show Agree (Float.Model.pack (UnpackedFloat.sub _ z.toModel.unpack x.toModel.unpack)).unpack
    y.toModel.unpack
  have agree := (Agree.zero_add .positive y.toModel.unpack).pack
  rw [unpack_pack_unpack] at agree
  rw [zero, sub_eq_add_neg_unpacked, ← h]
  exact agree

/-! ### Finite results -/

section Finite

variable {u v : UnpackedFloat}

/-- Packing makes nothing finite. -/
theorem isFinite_of_pack (h : (Float.Model.pack u).unpack.isFinite = true) :
    u.isFinite = true := by
  cases u with
  | notANumber => cases h
  | infinity s => cases s <;> cases h
  | zero s => rfl
  | finite s m e pos => rfl

theorem isFinite_of_add (h : (UnpackedFloat.add Format.binary64 u v).isFinite = true) :
    u.isFinite = true ∧ v.isFinite = true := by
  cases u with
  | notANumber => cases h
  | infinity s =>
      cases v with
      -- two infinities add up to one of them, or to no number
      | infinity t => cases s <;> cases t <;> cases h
      | notANumber => cases h
      | zero t => cases h
      | finite t n f pos => cases h
  | zero s => cases v <;> first | exact ⟨rfl, rfl⟩ | cases h
  | finite s m e pos => cases v <;> first | exact ⟨rfl, rfl⟩ | cases h

theorem isFinite_of_sub (h : (UnpackedFloat.sub Format.binary64 u v).isFinite = true) :
    u.isFinite = true ∧ v.isFinite = true := by
  rw [sub_eq_add_neg_unpacked] at h
  obtain ⟨left, right⟩ := isFinite_of_add h
  exact ⟨left, isFinite_neg_unpacked v ▸ right⟩

theorem isFinite_of_mul (h : (UnpackedFloat.mul Format.binary64 u v).isFinite = true) :
    u.isFinite = true ∧ v.isFinite = true := by
  cases u <;> cases v <;> first | exact ⟨rfl, rfl⟩ | cases h

/-- A finite quotient has a finite dividend.  Its divisor is finite too, or infinite, and
then the quotient is zero. -/
theorem isFinite_of_div (h : (UnpackedFloat.div Format.binary64 u v).isFinite = true) :
    u.isFinite = true ∧ (v.isFinite = true ∨
      ∃ s t, v = .infinity s ∧ UnpackedFloat.div Format.binary64 u v = .zero t) := by
  cases u with
  | notANumber => cases h
  | infinity s => cases v <;> cases h
  | zero s =>
      cases v with
      | notANumber => cases h
      | infinity t => exact ⟨rfl, Or.inr ⟨t, s / t, rfl, rfl⟩⟩
      | zero t => cases h
      | finite t n f pos => exact ⟨rfl, Or.inl rfl⟩
  | finite s m e pos =>
      cases v with
      | notANumber => cases h
      | infinity t => exact ⟨rfl, Or.inr ⟨t, s / t, rfl, rfl⟩⟩
      | zero t => cases h
      | finite t n f pos => exact ⟨rfl, Or.inl rfl⟩

end Finite

end Double

end HeartKeypad
