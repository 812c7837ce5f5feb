import HeartKeypad.Proofs.Number.Rounding

/-!
# How far rounding goes

A rounded number is off by a part in `2^53` of itself, and near zero by half of the least
double.

* `Double.Closest.error`, `Double.Closest.error_of_fixed` — how far the closest double is.
* `Double.add_nonneg_iff` — whether a sum is negative is not lost in rounding.
* `Double.sub_add_le` — going down and less than this up again leads no higher than before.
* `Double.five_mul_half_le` — a positive double is larger than its half.

### Why sums are more exact than products

All doubles are multiples of the least one, and so are their sums and differences.  Such a
number is a double itself as long as it has 53 bits, in particular near zero, where other
numbers lose their relative precision (`Double.Closest.error_of_fixed`).

### Why the way up is not longer than the way down

A step down that is small to a number may be lost altogether, and a step up may be rounded up.
Both numbers are multiples of one unit, up to half of it (`Double.Closest.error_of_unit`), and
the next double above is a whole unit away (`Double.exists_unit_above`).  So a sum that is
rounded to it has gone up by half a unit more than it came down.
-/

namespace HeartKeypad

open Float.Model Float.Model.UnpackedFloat

namespace Double

variable {m n : Nat} {e f : Int} {r q : ℚ} {h b x y : Float}

/-! ### Where the doubles are -/

/-- A number of 53 bits with an exponent in range has a canonical significand. -/
theorem exists_canonical_of_bits (few : m < 2 ^ 53) (low : -1074 ≤ e) (high : e ≤ 971) :
    ∃ n f, Canonical n f ∧ (n : ℚ) * 2 ^ f = m * 2 ^ e := by
  obtain ⟨i, rfl⟩ : ∃ i : Nat, e = -1074 + i := ⟨(e + 1074).toNat, by omega⟩
  induction i generalizing m with
  | zero => exact ⟨m, _, ⟨few, low, high, Or.inr rfl⟩, rfl⟩
  | succ i ih =>
      by_cases many : 2 ^ 52 ≤ m
      · exact ⟨m, _, ⟨few, low, high, Or.inl many⟩, rfl⟩
      · -- there is room for one bit more
        obtain ⟨n, f, c, value⟩ := ih (m := 2 * m) (by omega) (by omega) (by omega)
        refine ⟨n, f, c, value.trans ?_⟩
        rw [Nat.cast_succ, ← add_assoc, zpow_add_one₀ (by norm_num)]
        push_cast
        ring

/-- **A number of 53 bits is a double**, with either sign. -/
theorem exists_double_of_bits {k : Int} (few : k.natAbs < 2 ^ 53) (low : -1074 ≤ e)
    (high : e ≤ 971) : ∃ z : Float, z.isFinite = true ∧ exact z = k * 2 ^ e := by
  obtain ⟨n, f, c, value⟩ := exists_canonical_of_bits few low high
  rcases Int.natAbs_eq k with sign | sign
  · obtain ⟨z, finite, exactly⟩ := exists_double false c
    refine ⟨z, finite, exactly.trans ?_⟩
    rw [sign, Int.cast_natCast]
    exact value
  · obtain ⟨z, finite, exactly⟩ := exists_double true c
    refine ⟨z, finite, exactly.trans ?_⟩
    rw [sign, Int.cast_neg, Int.cast_natCast, neg_mul]
    exact congrArg Neg.neg value

/-- **The next double above a positive one** is a unit of its last place away. -/
theorem Canonical.succ_le (c : Canonical m e) (d : Canonical n f)
    (less : (m : ℚ) * 2 ^ e < n * 2 ^ f) : ((m : ℚ) + 1) * 2 ^ e ≤ n * 2 ^ f := by
  rcases lt_or_ge f e with finer | coarser
  · exact absurd (d.lt_of_exponent_lt c finer) (not_lt_of_gt less)
  · -- the other one is a multiple of the unit
    obtain ⟨i, rfl⟩ : ∃ i : Nat, f = e + i := ⟨(f - e).toNat, by omega⟩
    have unit := two_zpow_pos e
    have whole : (n : ℚ) * 2 ^ (e + i) = (n * 2 ^ i : Nat) * 2 ^ e := by
      rw [two_zpow_add_nat]
      push_cast
      ring
    rw [whole] at less ⊢
    have step : m + 1 ≤ n * 2 ^ i := by exact_mod_cast lt_of_mul_lt_mul_right less unit.le
    exact mul_le_mul_of_nonneg_right (by exact_mod_cast step) unit.le

/-! ### Multiples of the least double -/

/-- The least of the positive doubles. -/
def least : ℚ := 2 ^ (-1074 : Int)

theorem least_pos : 0 < least := two_zpow_pos _

/-- A multiple of the least double. -/
def Fixed (r : ℚ) : Prop := ∃ k : Int, r = k * least

namespace Fixed

theorem of_exact (hx : x.isFinite = true) : Fixed (exact x) := by
  obtain ⟨k, hk⟩ := exists_multiple hx
  refine ⟨k, ?_⟩
  rw [← hk, least, zpow_neg, mul_assoc]
  norm_num

theorem add (h : Fixed r) (h' : Fixed q) : Fixed (r + q) := by
  obtain ⟨k, rfl⟩ := h
  obtain ⟨l, rfl⟩ := h'
  exact ⟨k + l, by push_cast; ring⟩

theorem sub (h : Fixed r) (h' : Fixed q) : Fixed (r - q) := by
  obtain ⟨k, rfl⟩ := h
  obtain ⟨l, rfl⟩ := h'
  exact ⟨k - l, by push_cast; ring⟩

theorem nat_mul (n : Nat) (h : Fixed r) : Fixed (n * r) := by
  obtain ⟨k, rfl⟩ := h
  exact ⟨n * k, by push_cast; ring⟩

/-- Multiples that are less than the least double apart are ordered. -/
theorem le_of_lt_add (h : Fixed r) (h' : Fixed q) (near : r < q + least) : r ≤ q := by
  obtain ⟨k, rfl⟩ := h
  obtain ⟨l, rfl⟩ := h'
  have step : (k : ℚ) < l + 1 := by
    refine lt_of_mul_lt_mul_right ?_ least_pos.le
    linarith
  have order : k ≤ l := Int.lt_add_one_iff.1 (by exact_mod_cast step)
  exact mul_le_mul_of_nonneg_right (by exact_mod_cast order) least_pos.le

end Fixed

/-- A positive multiple of the least double is that, its double, or more. -/
theorem Fixed.cases_of_pos (h : Fixed r) (pos : 0 < r) :
    r = least ∨ r = 2 * least ∨ 3 * least ≤ r := by
  have u := least_pos
  obtain ⟨k, rfl⟩ := h
  have k_pos : 0 < k := by exact_mod_cast pos_of_mul_pos_left pos u.le
  obtain rfl | rfl | large : k = 1 ∨ k = 2 ∨ 3 ≤ k := by omega
  · exact Or.inl (by rw [Int.cast_one, one_mul])
  · exact Or.inr (Or.inl (by rw [Int.cast_ofNat]))
  · exact Or.inr (Or.inr (mul_le_mul_of_nonneg_right (by exact_mod_cast large) u.le))

theorem exact_ofBits_one : exact (Float.ofBits 1) = least := by
  have unpacked : (Float.ofBits 1).toModel.unpack = ofSignificand (signOf false) 1 (-1074) := by
    rfl
  rw [exact_of_unpack unpacked, Nat.cast_one, one_mul]
  rfl

theorem exact_ofBits_two : exact (Float.ofBits 2) = 2 * least := by
  have unpacked : (Float.ofBits 2).toModel.unpack = ofSignificand (signOf false) 2 (-1074) := by
    rfl
  rw [exact_of_unpack unpacked, Nat.cast_ofNat]
  rfl

/-- There is one double with the least value, and one with twice the least. -/
theorem eq_ofBits_one (hx : x.isFinite = true) (value : exact x = least) : x = Float.ofBits 1 :=
  eq_of_exact_eq hx (by decide) (value ▸ least_pos.ne') (value.trans exact_ofBits_one.symm)

theorem eq_ofBits_two (hx : x.isFinite = true) (value : exact x = 2 * least) :
    x = Float.ofBits 2 :=
  eq_of_exact_eq hx (by decide) (value ▸ (mul_pos two_pos least_pos).ne')
    (value.trans exact_ofBits_two.symm)

/-! ### How far the closest double is -/

theorem exists_withSign (r : ℚ) : ∃ negative q, 0 ≤ q ∧ r = withSign negative q := by
  rcases le_or_gt 0 r with nonneg | neg
  · exact ⟨false, r, nonneg, rfl⟩
  · exact ⟨true, -r, neg_nonneg.2 neg.le, (neg_neg r).symm⟩

theorem natAbs_lt {k : Int} {b : Nat} (h : |(k : ℚ)| < b) : k.natAbs < b := by
  have cast : ((k.natAbs : Nat) : ℚ) < b := by
    rw [Nat.cast_natAbs]
    exact_mod_cast h
  exact_mod_cast cast

/-- The least normal double. -/
theorem normal_eq : (2 : ℚ) ^ (-1022 : Int) = 2 ^ 52 * least := by
  rw [least, ← zpow_natCast, ← zpow_add₀ (by norm_num)]
  norm_num

/-- A closest double is off by a part in `2^53` of the number, from the normal range on. -/
theorem Closest.error_of_normal (h : Closest r x) (normal : (2 : ℚ) ^ (-1022 : Int) ≤ |r|)
    (small : |r| ≤ overflow) : |exact x - r| ≤ |r| / 2 ^ 53 := by
  obtain ⟨negative, q, nonneg, rfl⟩ := exists_withSign r
  rw [abs_withSign, abs_of_nonneg nonneg] at normal small ⊢
  rcases le_or_gt q largest with inside | beyond
  · exact h.relative normal inside
  · -- the largest double is half a unit away at most
    have c : Canonical (2 ^ 53 - 1) 971 :=
      ⟨by norm_num, by norm_num, le_refl _, Or.inl (by norm_num)⟩
    obtain ⟨z, finite, value⟩ := exists_double negative c
    refine (h.closest z finite).trans ?_
    have top : ((2 ^ 53 - 1 : Nat) : ℚ) * 2 ^ (971 : Int) = largest := by
      rw [largest]
      norm_num
    rw [value, withSign_sub, abs_withSign, top, abs_of_neg (by linarith)]
    unfold overflow at small
    unfold largest at beyond ⊢
    generalize (2 : ℚ) ^ (971 : Int) = u at *
    linarith

/-- A closest double is off by half a unit, for any unit of which the number has 53 bits. -/
theorem Closest.error_of_unit (h : Closest r x) (few : |r| ≤ m * 2 ^ e) (bits : m < 2 ^ 53)
    (low : -1074 ≤ e) (high : e ≤ 971) : |exact x - r| ≤ 2 ^ e / 2 := by
  have unit := two_zpow_pos e
  -- the multiple of the unit that the number is rounded to
  obtain ⟨k, near⟩ : ∃ k : Int, |r / 2 ^ e - k| ≤ 1 / 2 := ⟨_, abs_sub_round _⟩
  have small : k.natAbs < 2 ^ 53 := by
    refine natAbs_lt ?_
    have units : |r / 2 ^ e| ≤ m := by
      rw [abs_div, abs_of_pos unit]
      exact (div_le_iff₀ unit).2 few
    have cast : (m : ℚ) + 1 ≤ 2 ^ 53 := by exact_mod_cast bits
    have size := abs_sub_abs_le_abs_sub (k : ℚ) (r / 2 ^ e)
    rw [abs_sub_comm] at size
    push_cast
    linarith
  obtain ⟨z, finite, value⟩ := exists_double_of_bits small low high
  refine (h.closest z finite).trans ?_
  have scaled : exact z - r = (k - r / 2 ^ e) * 2 ^ e := by
    rw [value, sub_mul, div_mul_cancel₀ _ unit.ne']
  rw [scaled, abs_mul, abs_of_pos unit, abs_sub_comm]
  linarith [mul_le_mul_of_nonneg_right near unit.le]

/-- **A closest double is off by a part in `2^53` of the number**, or by half of the least
double below the normal range. -/
theorem Closest.error (h : Closest r x) (small : |r| ≤ overflow) :
    |exact x - r| ≤ |r| / 2 ^ 53 + least / 2 := by
  have half := least_pos
  have part : 0 ≤ |r| / 2 ^ 53 := div_nonneg (abs_nonneg r) (by norm_num)
  rcases le_or_gt ((2 : ℚ) ^ (-1022 : Int)) |r| with normal | low
  · have near := h.error_of_normal normal small
    linarith
  · rw [normal_eq, least] at low
    have near := h.error_of_unit (m := 2 ^ 52) (by exact_mod_cast low.le) (by norm_num)
      (le_refl _) (by norm_num)
    rw [← least] at near
    linarith

/-- **A closest double to a multiple of the least one is off by a part in `2^53`**, also below
the normal range. -/
theorem Closest.error_of_fixed (h : Closest r x) (fixed : Fixed r) (small : |r| ≤ overflow) :
    |exact x - r| ≤ |r| / 2 ^ 53 := by
  rcases le_or_gt ((2 : ℚ) ^ (-1022 : Int)) |r| with normal | low
  · exact h.error_of_normal normal small
  · -- it is a double itself
    obtain ⟨k, rfl⟩ := fixed
    rw [normal_eq, abs_mul, abs_of_pos least_pos] at low
    have few : k.natAbs < 2 ^ 53 := by
      refine natAbs_lt ((lt_of_mul_lt_mul_right low least_pos.le).trans ?_)
      norm_num
    obtain ⟨z, finite, value⟩ := exists_double_of_bits few (le_refl (-1074)) (by norm_num)
    rw [h.exact_eq finite value, least, sub_self, abs_zero]
    exact div_nonneg (abs_nonneg _) (by norm_num)

/-- What is rounded to a finite double lies a part in `2^53` to either side of it at most. -/
theorem Rounds.within (h : Rounds r x) (hx : x.isFinite = true) (fixed : Fixed r)
    (nonneg : 0 ≤ r) : r - r / 2 ^ 53 ≤ exact x ∧ exact x ≤ r + r / 2 ^ 53 := by
  obtain ⟨closest, small⟩ := h.closest_of_isFinite hx
  have error := abs_le.1 (closest.error_of_fixed fixed small)
  rw [abs_of_nonneg nonneg] at error
  constructor <;> linarith

/-- And half of the least double more, if it is no multiple of that. -/
theorem Rounds.within_least (h : Rounds r x) (hx : x.isFinite = true) (nonneg : 0 ≤ r) :
    r - r / 2 ^ 53 - least / 2 ≤ exact x ∧ exact x ≤ r + r / 2 ^ 53 + least / 2 := by
  obtain ⟨closest, small⟩ := h.closest_of_isFinite hx
  have error := abs_le.1 (closest.error small)
  rw [abs_of_nonneg nonneg] at error
  constructor <;> linarith

/-- **What a number up to the largest double is rounded to**, if it is not negative. -/
theorem Rounds.within_of_le (h : Rounds r x) (fixed : Fixed r) (nonneg : 0 ≤ r)
    (small : r ≤ largest) : x.isFinite = true ∧ 0 ≤ exact x ∧
      r - r / 2 ^ 53 ≤ exact x ∧ exact x ≤ r + r / 2 ^ 53 := by
  have closest := h.closest_of_abs_le (by rwa [abs_of_nonneg nonneg])
  exact ⟨closest.finite, closest.nonneg nonneg, h.within closest.finite fixed nonneg⟩

theorem Rounds.within_least_of_le (h : Rounds r x) (nonneg : 0 ≤ r) (small : r ≤ largest) :
    x.isFinite = true ∧ 0 ≤ exact x ∧
      r - r / 2 ^ 53 - least / 2 ≤ exact x ∧ exact x ≤ r + r / 2 ^ 53 + least / 2 := by
  have closest := h.closest_of_abs_le (by rwa [abs_of_nonneg nonneg])
  exact ⟨closest.finite, closest.nonneg nonneg, h.within_least closest.finite nonneg⟩

/-- The sum of two doubles that are not negative. -/
theorem add_within (hx : x.isFinite = true) (hy : y.isFinite = true) (px : 0 ≤ exact x)
    (py : 0 ≤ exact y) (small : exact x + exact y ≤ largest) :
    (x + y).isFinite = true ∧ 0 ≤ exact (x + y) ∧
      exact (x + y) ≤ (exact x + exact y) + (exact x + exact y) / 2 ^ 53 := by
  obtain ⟨finite, nonneg, -, high⟩ := (rounds_add hx hy).within_of_le
    ((Fixed.of_exact hx).add (Fixed.of_exact hy)) (add_nonneg px py) small
  exact ⟨finite, nonneg, high⟩

/-! ### Down and up again -/

/-- A positive double has the value of its significand and exponent. -/
theorem exists_canonical_of_pos (hx : x.isFinite = true) (pos : 0 < exact x) :
    ∃ m e, Canonical m e ∧ exact x = m * 2 ^ e := by
  obtain ⟨negative, m, e, c, unpacked⟩ := exists_significand hx
  have value := exact_of_unpack unpacked
  cases negative with
  | false => exact ⟨m, e, c, value⟩
  | true =>
      rw [value] at pos
      exact absurd pos (not_lt_of_ge (neg_nonpos.2 (magnitude_nonneg m e)))

/-- A positive double is a multiple of a unit, and the next one is a unit above it. -/
theorem exists_unit_above (hx : x.isFinite = true) (pos : 0 < exact x) :
    ∃ m e, Canonical m e ∧ exact x = m * 2 ^ e ∧
      ∀ y : Float, y.isFinite = true → exact x < exact y → exact x + 2 ^ e ≤ exact y := by
  obtain ⟨m, e, c, value⟩ := exists_canonical_of_pos hx pos
  refine ⟨m, e, c, value, fun y hy less => ?_⟩
  obtain ⟨n, f, d, other⟩ := exists_canonical_of_pos hy (pos.trans less)
  rw [value, other] at less
  have step := c.succ_le d less
  rw [value, other]
  linarith

/-- **Whether a sum is negative is not lost in rounding**: it is off by a small part of itself. -/
theorem add_nonneg_iff (hx : x.isFinite = true) (hy : y.isFinite = true) :
    0.0 ≤ x + y ↔ -y ≤ x := by
  have zero : exact 0.0 = 0 := exact_zero
  have sum := rounds_add hx hy
  rw [le_iff (isFinite_neg hy) hx, exact_neg hy]
  constructor
  · intro nonneg
    by_contra less
    have fixed := (Fixed.of_exact hx).add (Fixed.of_exact hy)
    have neg : exact x + exact y < 0 := by linarith
    cases sum with
    | above large _ => linarith [largest_pos, largest_lt_overflow]
    | below _ unpacked => exact (le_of_infinite unpacked (by decide)).2 nonneg
    | closest sum small =>
        rw [le_iff (by decide) sum.finite, zero] at nonneg
        have error := (abs_le.1 (sum.error_of_fixed fixed small)).2
        rw [abs_of_neg neg] at error
        linarith
  · intro less
    refine sum.ge (by decide) ?_
    rw [zero]
    linarith

/-- **Going down and less than this up again** leads no higher than before. -/
theorem sub_add_le (hh : h.isFinite = true) (hx : x.isFinite = true) (hb : b.isFinite = true)
    (pos : 0 < exact h) (nonneg : 0 ≤ exact b) (part : 5 * exact b ≤ 4 * exact x) :
    h - x + b ≤ h := by
  have size := abs_le.1 (abs_exact_le_largest h)
  have beyond := largest_lt_overflow
  cases rounds_sub hh hx with
  | above large _ => linarith
  | below _ unpacked => exact (le_of_infinite (add_infinite unpacked hb) hh).1
  | closest down small =>
      have le : exact (h - x) ≤ exact h := down.exact_le hh (by linarith)
      have up := rounds_add down.finite hb
      by_contra higher
      have more : exact h < exact (h - x) + exact b :=
        lt_of_not_ge fun less => higher (up.le hh less)
      rcases le_or_gt (exact x) (exact h) with inside | outside
      · obtain ⟨m, e, c, value, next⟩ := exists_unit_above hh pos
        have unit := two_zpow_pos e
        -- both numbers are multiples of the unit, up to half of it
        have near : exact (h - x) ≤ exact h - exact x + 2 ^ e / 2 := by
          have few : |exact h - exact x| ≤ m * 2 ^ e := by
            rw [abs_of_nonneg (by linarith)]
            linarith
          linarith [(abs_le.1 (down.error_of_unit few c.bits c.least c.most)).2]
        have close : exact (h - x) + exact b < exact h + 2 ^ e / 2 := by linarith
        cases up with
        | below _ unpacked => exact higher (le_of_infinite unpacked hh).1
        | above large _ =>
            have top : (2 : ℚ) ^ e ≤ 2 ^ (971 : Int) :=
              zpow_le_zpow_right₀ (by norm_num) c.most
            rw [overflow_eq] at large
            generalize (2 : ℚ) ^ (971 : Int) = u at *
            linarith
        | closest up _ =>
            have above : exact h < exact (h - x + b) := by
              rwa [le_iff up.finite hh, not_le] at higher
            have step := next _ up.finite above
            have closer := up.closest h hh
            rw [abs_of_nonneg (by linarith), abs_of_neg (by linarith)] at closer
            linarith
      · have error := (abs_le.1 (down.error_of_fixed
          ((Fixed.of_exact hh).sub (Fixed.of_exact hx)) small)).2
        rw [abs_of_neg (by linarith)] at error
        linarith

/-! ### Halves -/

/-- Half of a double that is not negative. -/
theorem half_within (hx : x.isFinite = true) (nonneg : 0 ≤ exact x) :
    (x / 2.0).isFinite = true ∧ 0 ≤ exact (x / 2.0) ∧
      exact (x / 2.0) ≤ exact x / 2 + exact x / 2 / 2 ^ 53 + least / 2 := by
  have quotient := rounds_div hx (y := 2.0) (by decide) (by rw [exact_two]; norm_num)
  rw [exact_two] at quotient
  have size := abs_le.1 (abs_exact_le_largest x)
  obtain ⟨finite, half, -, high⟩ := quotient.within_least_of_le (by linarith) (by linarith)
  exact ⟨finite, half, high⟩

/-- **A positive double is larger than its half**, by a fifth of it at least: half of the least
double is rounded down to zero. -/
theorem five_mul_half_le (hx : x.isFinite = true) (pos : 0 < exact x) :
    5 * exact (x / 2.0) ≤ 4 * exact x := by
  obtain ⟨-, -, half⟩ := half_within hx pos.le
  have u := least_pos
  rcases (Fixed.of_exact hx).cases_of_pos pos with one | more
  · have none : Float.ofBits 1 / 2.0 = 0 := by decide
    rw [eq_ofBits_one hx one, none, exact_zero, exact_ofBits_one]
    linarith
  · have two : 2 * least ≤ exact x := by rcases more with two | three <;> linarith
    linarith

end Double

end HeartKeypad
