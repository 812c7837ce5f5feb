import HeartKeypad.Number.Dyadic
import Mathlib.Algebra.Group.Nat.Defs

/-!
# Finite doubles

A double is finite iff it has an exact value (`Dyadic.isSome_ofFloat?`), and dividing a
finite double by one of magnitude two or more leaves it finite (`Double.isFinite_div`).

### Where overflow could come from

A quotient is rounded to 53 bits in two shifts, since rounding up may carry into a bit
more.  `Double.isFinite_round` follows the exponent through both: it exceeds 971, the
largest one a double can hold, only if the quotient had a bit at `2^1023` or above.  The
largest finite doubles lie below `2^1024`, so a divisor of two or more leaves the room
that the carry may need.
-/

namespace HeartKeypad

open Float.Model Float.Model.UnpackedFloat

/-! ### Exact values -/

/-- **The finite doubles are those with an exact value.** -/
theorem Dyadic.isSome_ofFloat? (x : Float) : (ofFloat? x).isSome = x.isFinite := by
  show _ = x.toModel.unpack.isFinite
  unfold ofFloat?
  cases x.toModel.unpack <;> rfl

namespace Double

/-! ### Fields -/

theorem toNat_pos_of_ne_zero {m : BitVec 52} (h : m ≠ 0#52) : 0 < m.toNat :=
  Nat.pos_of_ne_zero fun zero => h (BitVec.toNat_inj.1 zero)

/-- The significand of a normal double has its implicit bit in front. -/
theorem toNat_implicit (m : BitVec 52) : (1#1 ++ m).toNat = 2 ^ 52 + m.toNat := by
  rw [BitVec.toNat_append, ← Nat.shiftLeft_add_eq_or_of_lt m.isLt]
  rfl

theorem toNat_implicit_pos (m : BitVec 52) : 0 < (1#1 ++ m).toNat := by
  rw [toNat_implicit]
  omega

/-- What a sign and the two fields behind it stand for. -/
def ofFields (s : Sign) (e : BitVec 11) (m : BitVec 52) : UnpackedFloat :=
  if e = -1#11 then if m = 0#52 then .infinity s else .notANumber
  else if e = 0#11 then
    if h : m = 0#52 then .zero s else .finite s m.toNat (-1074) (toNat_pos_of_ne_zero h)
  else .finite s (1#1 ++ m).toNat (e.toNat - 1075) (toNat_implicit_pos m)

theorem finite_congr {s : Sign} {m n : Nat} {e f : Int} {hm : 0 < m} {hn : 0 < n}
    (mantissa : m = n) (exponent : e = f) :
    UnpackedFloat.finite s m e hm = UnpackedFloat.finite s n f hn := by
  subst mantissa exponent
  rfl

theorem unpack_eq_ofFields (b : BitVec 64) : UnpackedFloat.unpack Format.binary64 b =
    ofFields (Sign.ofBitVec (@unpackSign Format.binary64 b))
      (@unpackExponent Format.binary64 b) (@unpackMantissa Format.binary64 b) := by
  delta UnpackedFloat.unpack
  dsimp only
  generalize @unpackExponent Format.binary64 b = e
  have bias : (Format.binary64.exponentBias : Int) = 1023 := by decide
  unfold ofFields
  by_cases top : e = -1#11
  · rw [if_pos top, if_pos top]
  rw [if_neg top, if_neg top]
  by_cases bottom : e = 0#11
  · rw [if_pos bottom, if_pos bottom]
    by_cases zero : @unpackMantissa Format.binary64 b = 0#52
    · rw [dif_pos zero, dif_pos zero]
    · rw [dif_neg zero, dif_neg zero]
      refine finite_congr rfl ?_
      rw [bias, bottom]
      rfl
  · rw [if_neg bottom, if_neg bottom]
    refine finite_congr rfl ?_
    rw [bias]
    rfl

/-- Fields are finite unless the exponent is at the top. -/
theorem isFinite_ofFields (s : Sign) {e : BitVec 11} (m : BitVec 52) (h : e.toNat ≠ 2047) :
    (ofFields s e m).isFinite = true := by
  have notTop : e ≠ -1#11 := by
    rintro rfl
    exact h rfl
  rw [ofFields, if_neg notTop]
  by_cases bottom : e = 0#11
  · rw [if_pos bottom]
    by_cases zero : m = 0#52
    · rw [dif_pos zero]
      rfl
    · rw [dif_neg zero]
      rfl
  · rw [if_neg bottom]
    rfl

/-- A word is finite unless its exponent field is at the top. -/
theorem isFinite_unpack {b : BitVec 64}
    (h : (@unpackExponent Format.binary64 b).toNat ≠ 2047) :
    (UnpackedFloat.unpack Format.binary64 b).isFinite = true := by
  rw [unpack_eq_ofFields]
  exact isFinite_ofFields _ _ h

/-- A significand and an exponent as a double holds them: 53 bits, or fewer where the
exponent is the least. -/
structure Canonical (m : Nat) (e : Int) : Prop where
  bits : m < 2 ^ 53
  least : -1074 ≤ e
  most : e ≤ 971
  full : 2 ^ 52 ≤ m ∨ e = -1074

/-- **A double unpacks to a canonical significand and exponent.** -/
theorem canonical_of_unpack {x : Float} {s : Sign} {m : Nat} {e : Int} {h : 0 < m}
    (hx : x.toModel.unpack = .finite s m e h) : Canonical m e := by
  rw [Float.Model.unpack, unpack_eq_ofFields] at hx
  generalize @unpackExponent Format.binary64 x.toModel.toBits.toBitVec = field at hx
  generalize @unpackMantissa Format.binary64 x.toModel.toBits.toBitVec = low at hx
  have high : field.toNat < 2 ^ 11 := field.isLt
  have bits : low.toNat < 2 ^ 52 := low.isLt
  rw [ofFields] at hx
  by_cases top : field = -1#11
  · -- the top exponent stands for what is not finite
    rw [if_pos top] at hx
    by_cases zero : low = 0#52
    · rw [if_pos zero] at hx
      cases hx
    · rw [if_neg zero] at hx
      cases hx
  have notTop : field.toNat ≠ 2047 := fun h => top (BitVec.toNat_inj.1 h)
  rw [if_neg top] at hx
  by_cases bottom : field = 0#11
  · rw [if_pos bottom] at hx
    by_cases zero : low = 0#52
    · rw [dif_pos zero] at hx
      cases hx
    · rw [dif_neg zero] at hx
      obtain ⟨-, rfl, rfl⟩ := UnpackedFloat.finite.inj hx
      exact ⟨by omega, by omega, by omega, Or.inr rfl⟩
  · have notZero : field.toNat ≠ 0 := fun h => bottom (BitVec.toNat_inj.1 h)
    rw [if_neg bottom] at hx
    obtain ⟨-, rfl, rfl⟩ := UnpackedFloat.finite.inj hx
    have implicit := toNat_implicit low
    exact ⟨by omega, by omega, by omega, Or.inl (by omega)⟩

/-- The significand and exponent that a double unpacks to are within their ranges. -/
theorem unpack_bounds {x : Float} {s : Sign} {m : Nat} {e : Int} {h : 0 < m}
    (hx : x.toModel.unpack = .finite s m e h) : m < 2 ^ 53 ∧ e ≤ 971 :=
  ⟨(canonical_of_unpack hx).bits, (canonical_of_unpack hx).most⟩

/-- A significand whose exponent is not too large packs to a finite double. -/
theorem isFinite_pack (s : Sign) {m : Nat} {e : Int} (h : 0 < m) (he : e ≤ 971) :
    (Float.Model.pack (.finite s m e h)).unpack.isFinite = true := by
  have bias : Format.binary64.exponentBias = 1023 := by decide
  have below : ∀ b : Nat, b < 2047 → (BitVec.ofNat 11 b).toNat ≠ 2047 := by
    intro b hb
    rw [BitVec.toNat_ofNat, Nat.mod_eq_of_lt (by omega)]
    omega
  -- the exponent field has room, so the significand is not replaced by an infinity
  have room : ¬ 2 ^ 11 ≤ (e + (1023 : Nat) + (52 : Nat)).toNat + 1 := by omega
  rw [Float.Model.unpack, Float.Model.pack, UInt64.toBitVec_ofBitVec]
  delta UnpackedFloat.pack
  dsimp only
  rw [bias, if_neg room]
  split
  · refine isFinite_unpack ?_
    rw [unpackExponent_packComponents]
    exact below _ (by omega)
  · refine isFinite_unpack ?_
    rw [unpackExponent_packComponents]
    exact below 0 (by omega)

theorem isFinite_pack_zero (s : Sign) :
    (Float.Model.pack (.zero s)).unpack.isFinite = true := by
  cases s <;> rfl

/-- A finite double stays finite when its sign is turned. -/
theorem isFinite_neg {x : Float} (hx : x.isFinite = true) : (-x).isFinite = true := by
  show (Float.Model.pack x.toModel.unpack.neg).unpack.isFinite = true
  change x.toModel.unpack.isFinite = true at hx
  cases hu : x.toModel.unpack with
  | notANumber => rw [hu] at hx; cases hx
  | infinity _ => rw [hu] at hx; cases hx
  | zero t => exact isFinite_pack_zero _
  | finite t m e hm => exact isFinite_pack _ hm (unpack_bounds hu).2

/-! ### The exponent of a rounded value -/

/-- Shifting right drops bits of the significand. -/
theorem shiftRight_mantissa (em : ExtendedMantissa) (k : Nat) :
    (em >>> k).mantissa = em.mantissa / 2 ^ k := by
  induction k with
  | zero => simp [HShiftRight.hShiftRight, Nat.repeat]
  | succ k ih =>
      show (em >>> k).mantissa / 2 = _
      rw [ih, Nat.div_div_eq_div_mul, Nat.pow_succ]

theorem roundedMantissa_le (em : ExtendedMantissa) : em.roundedMantissa ≤ em.mantissa + 1 := by
  rcases em with ⟨m, r, t⟩
  cases r <;> cases t <;>
    simp only [ExtendedMantissa.roundedMantissa, ExtendedMantissa.accuracy,
      Accuracy.roundToNearestEven] <;> omega

/-- The exponent that a value with the given highest bit is shifted to. -/
theorem targetExponent_eq (total : Int) :
    Format.binary64.targetExponent total = max (total - 53) (-1074) := by
  have bits : Format.binary64.mantissaBits = 53 := by decide
  have least : Format.binary64.minExponent = -1074 := by decide
  rw [Format.targetExponent, bits, least]
  rfl

theorem shift_exponent (m : Nat) (e : Int) (a : Accuracy) :
    (shiftToTargetExponent Format.binary64 m e a).2 =
      max e (max (totalExponent m e - 53) (-1074)) := by
  rw [shiftToTargetExponent, shiftToExponent, targetExponent_eq]
  dsimp only
  omega

/-- A shifted significand has 53 bits at most. -/
theorem shift_mantissa_lt (m : Nat) (e : Int) (a : Accuracy) :
    (shiftToTargetExponent Format.binary64 m e a).1.mantissa < 2 ^ 53 := by
  have start : (ExtendedMantissa.ofMantissaAndAccuracy m a).mantissa = m := by
    cases a with
    | exact => rfl
    | inexact o => cases o <;> rfl
  rw [shiftToTargetExponent, shiftToExponent, targetExponent_eq]
  dsimp only
  rw [shiftRight_mantissa, start, Nat.div_lt_iff_lt_mul (Nat.two_pow_pos _), ← Nat.pow_add]
  refine Nat.lt_of_lt_of_le Nat.lt_log2_self (Nat.pow_le_pow_right (by decide) ?_)
  unfold totalExponent
  omega

/-- **Rounding leaves a finite double** where the highest bit lies below `2^1023` and the
exponent is not too large. -/
theorem isFinite_round (s : Sign) {m : Nat} {e : Int} (a : Accuracy)
    (top : totalExponent m e ≤ 1023) (he : e ≤ 970) :
    (Float.Model.pack (roundWithAccuracy Format.binary64 s m e a)).unpack.isFinite = true := by
  have exponent := shift_exponent m e a
  have bits := shift_mantissa_lt m e a
  rw [roundWithAccuracy]
  generalize shiftToTargetExponent Format.binary64 m e a = first at *
  obtain ⟨em, e₁⟩ := first
  dsimp only at *
  have low : e₁ ≤ 970 := by omega
  -- rounding up carries into one bit more at most
  have carry : em.roundedMantissa.log2 ≤ 53 := by
    have le := roundedMantissa_le em
    by_cases zero : em.roundedMantissa = 0
    · rw [zero]; decide
    · have := (Nat.log2_lt (k := 54) zero).2 (by omega)
      omega
  have exponent₂ := shift_exponent em.roundedMantissa e₁ .exact
  by_cases zero : (shiftToTargetExponent Format.binary64 em.roundedMantissa e₁
      .exact).1.mantissa = 0
  · rw [dif_pos zero]
    exact isFinite_pack_zero s
  · rw [dif_neg zero]
    refine isFinite_pack s _ ?_
    rw [exponent₂]
    unfold totalExponent
    omega

/-! ### Quotients -/

/-- The highest bit of a quotient. -/
theorem log2_shiftLeft_div {m k n : Nat} (hn : 0 < n) (h : (m <<< k) / n ≠ 0) :
    ((m <<< k) / n).log2 + n.log2 ≤ m.log2 + k := by
  have bound : 2 ^ (((m <<< k) / n).log2 + n.log2) < 2 ^ (m.log2 + 1 + k) := by
    rw [Nat.pow_add, Nat.pow_add]
    calc 2 ^ ((m <<< k) / n).log2 * 2 ^ n.log2 ≤ (m <<< k) / n * n :=
          Nat.mul_le_mul (Nat.log2_self_le h) (Nat.log2_self_le (Nat.ne_of_gt hn))
      _ ≤ m * 2 ^ k := by
          rw [← Nat.shiftLeft_eq]
          exact Nat.div_mul_le_self _ _
      _ < 2 ^ (m.log2 + 1) * 2 ^ k :=
          Nat.mul_lt_mul_of_pos_right Nat.lt_log2_self (Nat.two_pow_pos k)
  have := (Nat.pow_lt_pow_iff_right (by decide)).1 bound
  omega

/-- A quotient by a value of two or more is rounded to a finite double. -/
theorem isFinite_divCore (s : Sign) {m n : Nat} {e f : Int} (hm : 0 < m) (hn : 0 < n)
    (bits : m < 2 ^ 53) (he : e ≤ 971) (two : 2 ≤ totalExponent n f) :
    (Float.Model.pack (roundWithAccuracy Format.binary64 s
      (divCore Format.binary64 m e n f).1 (divCore Format.binary64 m e n f).2.1
      (divCore Format.binary64 m e n f).2.2)).unpack.isFinite = true := by
  have mbits : m.log2 < 53 := (Nat.log2_lt (Nat.ne_of_gt hm)).2 bits
  rw [divCore, targetExponent_eq]
  dsimp only
  unfold totalExponent at two ⊢
  refine isFinite_round s _ ?_ (by omega)
  unfold totalExponent
  -- the quotient has as many bits as the difference of the exponents allows
  by_cases zero : (m <<< (e - f - min (e - f) (max (↑m.log2 + 1 + e - (↑n.log2 + 1 + f) - 53)
      (-1074))).toNat) / n = 0
  · rw [zero, Nat.log2_zero]
    omega
  · have high := log2_shiftLeft_div hn zero
    omega

/-- **Dividing a finite double by one of magnitude two or more leaves it finite.** -/
theorem isFinite_div {x y : Float} {s : Sign} {n : Nat} {f : Int} {hn : 0 < n}
    (hx : x.isFinite = true) (hy : y.toModel.unpack = .finite s n f hn)
    (two : 2 ≤ totalExponent n f) : (x / y).isFinite = true := by
  show (Float.Model.pack (UnpackedFloat.div Format.binary64 x.toModel.unpack
    y.toModel.unpack)).unpack.isFinite = true
  change x.toModel.unpack.isFinite = true at hx
  rw [hy]
  cases hu : x.toModel.unpack with
  | notANumber => rw [hu] at hx; cases hx
  | infinity _ => rw [hu] at hx; cases hx
  | zero t => exact isFinite_pack_zero _
  | finite t m e hm =>
      obtain ⟨bits, he⟩ := unpack_bounds hu
      exact isFinite_divCore _ hm hn bits he two

/-- A hundredth of a finite double is finite. -/
theorem isFinite_div_hundred {x : Float} (hx : x.isFinite = true) :
    (x / 100.0).isFinite = true := by
  have hundred : (100.0 : Float).toModel.unpack =
      .finite .positive 7036874417766400 (-46) (by decide) := by rfl
  exact isFinite_div hx hundred (by decide)

end Double

end HeartKeypad
