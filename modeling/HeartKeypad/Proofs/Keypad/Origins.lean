import HeartKeypad.Keypad.Layout
import HeartKeypad.Proofs.Number.Precision

/-!
# Where hearts start

The rules of a screen leave room for four keys between its sides and ask for no room above
its bottom.  So the digits stand between the sides of every screen that breaks no rule, and
none of them below it, but the upper rows may stand above a flat one.

* `Screen.Valid` — the numbers of a screen that breaks no rule.
* `Screen.Tall` — there is room for all rows.
* `Layout.digit_origins` — where the digits of such a screen are.
* `Layout.row_above_screen` — a screen that breaks no rule with a digit above it.

### Why rounding moves no key off the screen

The keys are computed from the width, and what they take of it is added up again.  Large
screens have a half of a key and a space left on the right, far more than rounding takes.
On the smallest ones all numbers are a few times the least double, and what is added up is
less than that above the width, so that it is no more than the width
(`Double.Fixed.le_of_lt_add`).  A room too small for this leaves no key at all
(`Screen.Valid.three_le_room`).

Down the screen the height may be so much larger than the keys that a row is lost in it.
Still a row is no higher than the bottom of the screen once half a key is added again
(`Double.sub_add_le`), and whether this makes up for what is above the screen is not lost
either (`Double.add_nonneg_iff`).
-/

namespace HeartKeypad

open Float.Model Float.Model.UnpackedFloat

open Double

/-! ### Screens -/

namespace Screen

variable {s : Screen}

/-- What the margins leave of the width. -/
def room (s : Screen) : Float := s.width - 5.0 * s.spacing

/-- **The numbers of a screen that breaks no rule.** -/
structure Valid (s : Screen) : Prop where
  spacing : s.spacing.isFinite = true
  spacing_nonneg : 0 ≤ exact s.spacing
  width : s.width.isFinite = true
  margins : (5.0 * s.spacing).isFinite = true
  room : s.room.isFinite = true
  key : s.keyWidth.isFinite = true
  key_pos : 0 < exact s.keyWidth
  height : s.height.isFinite = true
  height_pos : 0 < exact s.height

theorem fault?_eq_none (h : s.fault? = none) :
    (s.spacing.isFinite = true ∧ ¬ s.spacing < 0.0) ∧
    (s.width.isFinite = true ∧ ¬ s.keyWidth ≤ 0.0) ∧
    s.height.isFinite = true ∧ ¬ s.height ≤ 0.0 := by
  have both {finite : Bool} {p : Prop} [Decidable p] (fine : ¬ (!finite || decide p) = true) :
      finite = true ∧ ¬ p := by
    simpa using fine
  unfold fault? at h
  split at h
  · cases h
  rename_i spacing
  split at h
  · cases h
  rename_i width
  split at h
  · cases h
  rename_i height
  exact ⟨both spacing, both width, both height⟩

/-- A quarter of minus infinity is not positive. -/
theorem quarter_le {x : Float} (infinite : x.toModel.unpack = .infinity .negative) :
    x / 4.0 ≤ 0.0 := by
  have four : (4.0 : Float).toModel.unpack =
      .finite .positive 4503599627370496 (-50) (by decide) := by rfl
  exact (le_of_infinite (div_infinite infinite four) (by decide)).1

theorem rounds_quarter {x : Float} (hx : x.isFinite = true) : Rounds (exact x / 4) (x / 4.0) := by
  have quotient := rounds_div hx (y := 4.0) (by decide) (by rw [exact_four]; norm_num)
  rwa [exact_four] at quotient

/-- The numbers are finite, since what is left of infinite margins is no room for keys. -/
theorem valid_of_fault? (h : s.fault? = none) : s.Valid := by
  obtain ⟨⟨spacing, spacing_nonneg⟩, ⟨width, key_pos⟩, height, height_pos⟩ := fault?_eq_none h
  have zero : exact 0.0 = 0 := exact_zero
  rw [lt_iff spacing (by decide), zero, not_lt] at spacing_nonneg
  rw [le_iff height (by decide), zero, not_le] at height_pos
  have wide := abs_le.1 (abs_exact_le_largest s.width)
  have beyond := largest_lt_overflow
  have product := rounds_mul (x := 5.0) (by decide) spacing
  rw [exact_five] at product
  cases product with
  | below large _ => linarith [largest_pos]
  | above _ unpacked => exact absurd (quarter_le (sub_infinite width unpacked)) key_pos
  | closest margins _ =>
      have margins_nonneg := margins.nonneg (by linarith)
      cases rounds_sub width margins.finite with
      | above large _ => linarith
      | below _ unpacked => exact absurd (quarter_le unpacked) key_pos
      | closest room _ =>
          have small : |exact s.room / 4| ≤ largest := by
            rw [abs_div, abs_of_pos (by norm_num : (0 : ℚ) < 4)]
            linarith [largest_pos, abs_exact_le_largest s.room]
          have key : Closest (exact s.room / 4) s.keyWidth :=
            (rounds_quarter room.finite).closest_of_abs_le small
          rw [le_iff key.finite (by decide), zero, not_le] at key_pos
          exact ⟨spacing, spacing_nonneg, width, margins.finite, room.finite, key.finite, key_pos,
            height, height_pos⟩

namespace Valid

/-- Less than three times the least double leaves nothing for a key, as a quarter of it is
rounded down to zero. -/
theorem three_le_room (v : s.Valid) : 3 * least ≤ exact s.room := by
  have key := ((rounds_quarter v.room).closest_of_isFinite v.key).1
  have pos : 0 < exact s.room := by
    by_contra none
    exact not_lt_of_ge (key.nonpos (by linarith)) v.key_pos
  have some {x : Float} (same : s.room = x) : x / 4.0 ≠ 0 := by
    intro none
    have width : s.keyWidth = 0 := by
      show s.room / 4.0 = 0
      rw [same, none]
    have positive := v.key_pos
    rw [width, exact_zero] at positive
    exact lt_irrefl _ positive
  rcases (Fixed.of_exact v.room).cases_of_pos pos with one | two | three
  · exact absurd (by decide) (some (eq_ofBits_one v.room one))
  · exact absurd (by decide) (some (eq_ofBits_two v.room two))
  · exact three

/-- What the margins, the room between them and a key are off by. -/
theorem estimates (v : s.Valid) :
    5 * exact s.spacing - 5 * exact s.spacing / 2 ^ 53 ≤ exact (5.0 * s.spacing) ∧
    exact s.room ≤ (exact s.width - exact (5.0 * s.spacing)) +
      (exact s.width - exact (5.0 * s.spacing)) / 2 ^ 53 ∧
    exact s.keyWidth ≤ exact s.room / 4 + exact s.room / 4 / 2 ^ 53 + least / 2 := by
  have u := least_pos
  have room_pos := v.three_le_room
  have product := rounds_mul (x := 5.0) (by decide) v.spacing
  rw [exact_five] at product
  have difference := rounds_sub v.width v.margins
  have inside : 0 ≤ exact s.width - exact (5.0 * s.spacing) := by
    by_contra none
    have le : exact s.room ≤ 0 :=
      (difference.closest_of_isFinite v.room).1.nonpos (le_of_not_ge none)
    linarith
  have fixed : Fixed (5 * exact s.spacing) := (Fixed.of_exact v.spacing).nat_mul 5
  exact ⟨(product.within v.margins fixed (by linarith [v.spacing_nonneg])).1,
    (difference.within v.room ((Fixed.of_exact v.width).sub (Fixed.of_exact v.margins)) inside).2,
    ((rounds_quarter v.room).within_least v.key (by linarith)).2⟩

/-- **What the width has room for**: the spaces and the keys, up to a thousandth of them. -/
theorem sizes (v : s.Valid) : 0 < least ∧ 3 * least ≤ exact s.room ∧ 0 ≤ exact s.spacing ∧
    exact s.keyWidth ≤ 251 / 1000 * exact s.room + least / 2 ∧
    499 / 100 * exact s.spacing + 999 / 1000 * exact s.room ≤ exact s.width ∧
    exact s.width ≤ largest := by
  obtain ⟨margins, room, key⟩ := v.estimates
  have u := least_pos
  have three := v.three_le_room
  have spacing := v.spacing_nonneg
  exact ⟨u, three, spacing, by linarith, by linarith, (abs_le.1 (abs_exact_le_largest _)).2⟩

end Valid

/-! ### Across the screen -/

/-- The distance from a key to the next one. -/
def pitch (s : Screen) : Float := s.keyWidth + s.spacing

/-- The room that some ordinary keys take from the left. -/
def columns (s : Screen) : Nat → Float
  | 0 => -0.0
  | n + 1 => columns s n + s.pitch

theorem exact_minus_zero : (-0.0 : Float).isFinite = true ∧ exact (-0.0) = 0 := by
  refine ⟨by decide, ?_⟩
  rw [exact_neg (by decide)]
  exact neg_eq_zero.2 exact_zero

namespace Valid

theorem pitch (v : s.Valid) : s.pitch.isFinite = true ∧ exact s.keyWidth ≤ exact s.pitch ∧
    exact s.pitch ≤ (exact s.keyWidth + exact s.spacing) +
      (exact s.keyWidth + exact s.spacing) / 2 ^ 53 := by
  obtain ⟨u, room, spacing, key, inside, small⟩ := v.sizes
  obtain ⟨finite, -, bound⟩ := add_within v.key v.spacing v.key_pos.le spacing (by linarith)
  have closest := ((rounds_add v.key v.spacing).closest_of_isFinite finite).1
  exact ⟨finite, closest.le_exact v.key (by linarith), bound⟩

/-- Adding to minus zero changes nothing, so that one column is one key and its space. -/
theorem columns_one (v : s.Valid) :
    (s.columns 1).isFinite = true ∧ exact (s.columns 1) = exact s.pitch := by
  have sum := rounds_add exact_minus_zero.1 v.pitch.1
  rw [exact_minus_zero.2, zero_add] at sum
  have closest := sum.closest_of_abs_le (abs_exact_le_largest _)
  exact ⟨closest.finite, closest.exact_eq v.pitch.1 rfl⟩

theorem columns (v : s.Valid) {n : Nat} (few : n ≤ 2) : (s.columns n).isFinite = true ∧
    0 ≤ exact (s.columns n) ∧
    exact (s.columns n) ≤ 2 * exact s.pitch + 2 * exact s.pitch / 2 ^ 53 := by
  obtain ⟨finite, wide, bound⟩ := v.pitch
  have nonneg := v.key_pos.le.trans wide
  obtain ⟨one_finite, one⟩ := v.columns_one
  match n, few with
  | 0, _ =>
      refine ⟨exact_minus_zero.1, exact_minus_zero.2.ge, ?_⟩
      show exact (-0.0) ≤ _
      rw [exact_minus_zero.2]
      linarith
  | 1, _ =>
      refine ⟨one_finite, one ▸ nonneg, ?_⟩
      rw [one]
      linarith
  | 2, _ =>
      obtain ⟨u, room, spacing, key, inside, small⟩ := v.sizes
      have two := add_within one_finite finite (one ▸ nonneg) nonneg (by linarith)
      rwa [one, ← two_mul] at two

/-- Two parts that the width has room for, up to the least double, end on the screen. -/
theorem across (v : s.Valid) {a b : Float} (ha : a.isFinite = true) (hb : b.isFinite = true)
    (na : 0 ≤ exact a) (nb : 0 ≤ exact b) (room : exact a + exact b < exact s.width + least) :
    0.0 ≤ a + b ∧ a + b ≤ s.width := by
  have sum := rounds_add ha hb
  have zero : exact 0.0 = 0 := exact_zero
  refine ⟨sum.ge (by decide) ?_, sum.le v.width ?_⟩
  · rw [zero]
    exact add_nonneg na nb
  · exact ((Fixed.of_exact ha).add (Fixed.of_exact hb)).le_of_lt_add (Fixed.of_exact v.width) room

/-- **The first three columns are centred between the sides of the screen.** -/
theorem column_across (v : s.Valid) {n : Nat} (few : n ≤ 2) :
    0.0 ≤ s.spacing + s.columns n + s.keyWidth / 2.0 ∧
      s.spacing + s.columns n + s.keyWidth / 2.0 ≤ s.width := by
  obtain ⟨-, -, pitch⟩ := v.pitch
  obtain ⟨columns_finite, columns_nonneg, columns⟩ := v.columns few
  obtain ⟨half_finite, half_nonneg, half⟩ := half_within v.key v.key_pos.le
  obtain ⟨u, room, spacing, key, inside, small⟩ := v.sizes
  obtain ⟨left_finite, left_nonneg, left⟩ :=
    add_within v.spacing columns_finite spacing columns_nonneg (by linarith)
  exact v.across left_finite half_finite left_nonneg half_nonneg (by linarith)

/-- The zero is half as wide as the screen without the margins. -/
theorem zeroWidth (v : s.Valid) : s.zeroWidth.isFinite = true ∧ 0 ≤ exact s.zeroWidth ∧
    exact s.zeroWidth ≤ 501 / 1000 * exact s.width - 199 / 100 * exact s.spacing + 2 * least := by
  obtain ⟨u, -, spacing, -, inside, small⟩ := v.sizes
  have product := rounds_mul (x := 4.0) (by decide) v.spacing
  rw [exact_four] at product
  obtain ⟨margins, -, marginsLow, marginsHigh⟩ := product.within_of_le
    ((Fixed.of_exact v.spacing).nat_mul 4) (by linarith) (by linarith [v.three_le_room])
  obtain ⟨room, roomNonneg, -, roomHigh⟩ := (rounds_sub v.width margins).within_of_le
    ((Fixed.of_exact v.width).sub (Fixed.of_exact margins)) (by linarith [v.three_le_room])
    (by linarith)
  obtain ⟨quarter, quarterNonneg, -, quarterHigh⟩ :=
    (rounds_quarter room).within_least_of_le (by linarith) (by linarith)
  have twice := rounds_mul quarter (y := 2.0) (by decide)
  rw [exact_two, mul_comm] at twice
  obtain ⟨finite, nonneg, -, high⟩ := twice.within_of_le
    ((Fixed.of_exact quarter).nat_mul 2) (by linarith) (by linarith [v.three_le_room])
  exact ⟨finite, nonneg, high.trans (by linarith [v.three_le_room])⟩

/-- **The zero is centred between the sides of the screen.** -/
theorem zero_across (v : s.Valid) :
    0.0 ≤ s.spacing + -0.0 + s.zeroWidth / 2.0 ∧
      s.spacing + -0.0 + s.zeroWidth / 2.0 ≤ s.width := by
  obtain ⟨zero_finite, zero⟩ := exact_minus_zero
  obtain ⟨width_finite, width_nonneg, width⟩ := v.zeroWidth
  obtain ⟨half_finite, half_nonneg, half⟩ := half_within width_finite width_nonneg
  obtain ⟨u, room, spacing, key, inside, small⟩ := v.sizes
  obtain ⟨left_finite, left_nonneg, left⟩ :=
    add_within v.spacing zero_finite spacing zero.ge (by linarith)
  exact v.across left_finite half_finite left_nonneg half_nonneg (by linarith)

end Valid

/-! ### Down the screen -/

/-- The upper edge of a row, counted from below. -/
def rowTop (s : Screen) (r : Nat) : Float := s.height - Float.ofNat r * s.pitch

/-- **There is room for the rows**: half a key of the row of sevens at most is above the
screen. -/
def Tall (s : Screen) : Prop :=
  -(s.keyHeight / 2.0) ≤ s.height - 4.0 * (s.keyHeight + s.spacing)

instance (s : Screen) : Decidable s.Tall := inferInstanceAs (Decidable (_ ≤ _))

theorem tall_iff : s.Tall ↔ -(s.keyWidth / 2.0) ≤ s.rowTop 4 := by
  have four : (4.0 : Float) = Float.ofNat 4 := by decide
  rw [Tall, four]
  rfl

namespace Valid

/-- The distance from the upper edge of a row to the bottom of the screen is rounded once. -/
theorem rounds_rows (v : s.Valid) {r : Nat} (few : r ≤ 4) :
    Rounds (r * exact s.pitch) (Float.ofNat r * s.pitch) := by
  obtain ⟨finite, value⟩ := exact_ofNat (lt_of_le_of_lt few (by norm_num : 4 < 2 ^ 53))
  have product := rounds_mul finite v.pitch.1
  rwa [value] at product

theorem rows_nonneg (v : s.Valid) (r : Nat) : 0 ≤ r * exact s.pitch :=
  mul_nonneg (Nat.cast_nonneg r) (v.key_pos.le.trans v.pitch.2.1)

/-- **No row is centred below the screen.** -/
theorem center_le_height (v : s.Valid) {r : Nat} (some : 1 ≤ r) (few : r ≤ 4) :
    s.rowTop r + s.keyWidth / 2.0 ≤ s.height := by
  obtain ⟨pitch_finite, wide, -⟩ := v.pitch
  obtain ⟨half_finite, half_nonneg, -⟩ := half_within v.key v.key_pos.le
  cases v.rounds_rows few with
  | closest rows _ =>
      -- the way down is a key at least, and the way up is half a key
      have one : (1 : ℚ) ≤ r := by exact_mod_cast some
      have more := rows.le_exact pitch_finite
        (le_mul_of_one_le_left (v.key_pos.le.trans wide) one)
      have half := five_mul_half_le v.key v.key_pos
      exact sub_add_le v.height rows.finite half_finite v.height_pos half_nonneg (by linarith)
  | above _ unpacked =>
      exact (le_of_infinite (add_infinite (sub_infinite v.height unpacked) half_finite)
        v.height).1
  | below large _ => linarith [v.rows_nonneg r, largest_pos, largest_lt_overflow]

/-- The upper edge of a row is a double or minus infinity. -/
theorem rowTop (v : s.Valid) {r : Nat} (few : r ≤ 4) :
    (Float.ofNat r * s.pitch).isFinite = true ∧ (s.rowTop r).isFinite = true ∨
      (s.rowTop r).toModel.unpack = .infinity .negative := by
  have nonneg := v.rows_nonneg r
  have beyond := largest_lt_overflow
  cases v.rounds_rows few with
  | closest rows _ =>
      have positive := rows.nonneg nonneg
      cases rounds_sub v.height rows.finite with
      | closest top _ => exact Or.inl ⟨rows.finite, top.finite⟩
      | above large _ => linarith [(abs_le.1 (abs_exact_le_largest s.height)).2]
      | below _ unpacked => exact Or.inr unpacked
  | above _ unpacked => exact Or.inr (sub_infinite v.height unpacked)
  | below large _ => linarith [largest_pos]

/-- **A row is centred on the screen** iff no more than half of it is above the screen. -/
theorem center_nonneg_iff (v : s.Valid) {r : Nat} (few : r ≤ 4) :
    0.0 ≤ s.rowTop r + s.keyWidth / 2.0 ↔ -(s.keyWidth / 2.0) ≤ s.rowTop r := by
  obtain ⟨half_finite, -, -⟩ := half_within v.key v.key_pos.le
  rcases v.rowTop few with ⟨-, finite⟩ | infinite
  · exact add_nonneg_iff finite half_finite
  · exact iff_of_false (le_of_infinite (add_infinite infinite half_finite) (by decide)).2
      (le_of_infinite infinite (isFinite_neg half_finite)).2

/-- Fewer rows than four are lower than four, by more than rounding takes. -/
theorem rows_lt (v : s.Valid) {r : Nat} (fewer : r < 4)
    (finite : (Float.ofNat 4 * s.pitch).isFinite = true) :
    (Float.ofNat r * s.pitch).isFinite = true ∧ 0 ≤ exact (Float.ofNat r * s.pitch) ∧
      exact (Float.ofNat r * s.pitch) < exact (Float.ofNat 4 * s.pitch) := by
  obtain ⟨pitch_finite, wide, -⟩ := v.pitch
  have pos : 0 < exact s.pitch := v.key_pos.trans_le wide
  have fixed (n : Nat) : Fixed (n * exact s.pitch) := (Fixed.of_exact pitch_finite).nat_mul n
  have three : (r : ℚ) ≤ 3 := by exact_mod_cast Nat.lt_succ_iff.1 fewer
  have bound : r * exact s.pitch ≤ 3 * exact s.pitch := mul_le_mul_of_nonneg_right three pos.le
  have four := v.rounds_rows (le_refl 4)
  have small := (abs_le.1 (four.closest_of_isFinite finite).2).2
  have high := (four.within finite (fixed 4) (v.rows_nonneg 4)).1
  push_cast at small high
  have rounds := v.rounds_rows fewer.le
  have rows := rounds.closest_of_abs_lt (by
    rw [abs_of_nonneg (v.rows_nonneg r)]
    linarith)
  have low := (rounds.within rows.finite (fixed r) (v.rows_nonneg r)).2
  exact ⟨rows.finite, rows.nonneg (v.rows_nonneg r), by linarith⟩

/-- **If the fourth row begins low enough, the rows below it do.** -/
theorem low_of_tall (v : s.Valid) (tall : s.Tall) {r : Nat} (few : r ≤ 4) :
    -(s.keyWidth / 2.0) ≤ s.rowTop r := by
  rw [tall_iff] at tall
  have half := isFinite_neg (half_within v.key v.key_pos.le).1
  rcases Nat.lt_or_eq_of_le few with fewer | rfl
  · rcases v.rowTop (le_refl 4) with ⟨four, finite⟩ | infinite
    · obtain ⟨rows, nonneg, less⟩ := v.rows_lt fewer four
      obtain ⟨top, small⟩ := (rounds_sub v.height four).closest_of_isFinite finite
      have bounds := abs_le.1 small
      have height := abs_le.1 (abs_exact_le_largest s.height)
      have beyond := largest_lt_overflow
      have lower : Closest (exact s.height - exact (Float.ofNat r * s.pitch)) (s.rowTop r) :=
        (rounds_sub v.height rows).closest_of_abs_lt (abs_lt.2 ⟨by linarith, by linarith⟩)
      have order := top.exact_le_exact lower (by linarith)
      rw [le_iff half finite] at tall
      exact (le_iff half lower.finite).2 (tall.trans order)
    · exact absurd tall (le_of_infinite infinite half).2
  · exact tall

end Valid

end Screen

/-! ### Digits -/

namespace Layout

variable {s : Screen}

/-- The digits from one to nine fill three rows of three. -/
theorem origin?_of_ne_zero (s : Screen) {d : Digit} (h : d ≠ 0) : origin? s (.digit d) = some
    ⟨s.spacing + s.columns ((d.val - 1) % 3) + s.keyWidth / 2.0,
      s.rowTop ((d.val - 1) / 3 + 2) + s.keyWidth / 2.0⟩ := by
  fin_cases d <;> first | exact absurd rfl h | rfl

theorem origin?_zero (s : Screen) : origin? s (.digit 0) = some
    ⟨s.spacing + -0.0 + s.zeroWidth / 2.0, s.rowTop 1 + s.keyWidth / 2.0⟩ := rfl

/-- Every digit is between the sides of the screen, in one of the four rows from below. -/
theorem exists_origin (v : s.Valid) (d : Digit) : ∃ p r, 1 ≤ r ∧ r ≤ 4 ∧
    origin? s (.digit d) = some p ∧ 0.0 ≤ p.x ∧ p.x ≤ s.width ∧
    p.y = s.rowTop r + s.keyWidth / 2.0 := by
  by_cases zero : d = 0
  · obtain rfl := zero
    exact ⟨_, 1, le_refl 1, by norm_num, origin?_zero s, v.zero_across.1, v.zero_across.2, rfl⟩
  · have across := v.column_across (n := (d.val - 1) % 3) (by omega)
    exact ⟨_, (d.val - 1) / 3 + 2, by omega, by omega, origin?_of_ne_zero s zero, across.1,
      across.2, rfl⟩

/-- **Where hearts start.**  On a screen that breaks no rule every digit has an origin between the
sides of the screen and not below it.  All of them are on the screen iff there is room for the
rows. -/
theorem digit_origins (valid : s.fault? = none) :
    (∀ d : Digit, ∃ p, origin? s (.digit d) = some p ∧
      0.0 ≤ p.x ∧ p.x ≤ s.width ∧ p.y ≤ s.height) ∧
    ((∀ d : Digit, ∃ p, origin? s (.digit d) = some p ∧
      0.0 ≤ p.x ∧ p.x ≤ s.width ∧ 0.0 ≤ p.y ∧ p.y ≤ s.height) ↔ s.Tall) := by
  have v := Screen.valid_of_fault? valid
  refine ⟨fun d => ?_, fun all => ?_, fun tall d => ?_⟩
  · obtain ⟨p, r, some, few, origin, left, right, row⟩ := exists_origin v d
    exact ⟨p, origin, left, right, row ▸ v.center_le_height some few⟩
  · -- the seven is in the fourth row
    obtain ⟨p, origin, -, -, top, -⟩ := all 7
    rw [origin?_of_ne_zero s (by decide)] at origin
    cases origin
    exact Screen.tall_iff.2 ((v.center_nonneg_iff (le_refl 4)).1 top)
  · obtain ⟨p, r, some, few, origin, left, right, row⟩ := exists_origin v d
    have top := (v.center_nonneg_iff few).2 (v.low_of_tall tall few)
    exact ⟨p, origin, left, right, row ▸ top, row ▸ v.center_le_height some few⟩

/-- The default screen has room for the rows, so that all digits are on it. -/
theorem default_digit_origins : ({} : Screen).fault? = none ∧ ({} : Screen).Tall ∧
    ∀ d : Digit, ∃ p, origin? {} (.digit d) = some p ∧
      0.0 ≤ p.x ∧ p.x ≤ ({} : Screen).width ∧ 0.0 ≤ p.y ∧ p.y ≤ ({} : Screen).height :=
  ⟨by decide, by decide, (digit_origins (by decide)).2.2 (by decide)⟩

/-- The default screen, turned on its side. -/
def landscape : Screen := { width := 844.0, height := 390.0 }

/-- **Not every screen that breaks no rule has its digits on it**: the seven is above the one that
is turned on its side. -/
theorem row_above_screen : ¬ ∀ s : Screen, s.fault? = none → ∀ d : Digit,
    ∃ p, origin? s (.digit d) = some p ∧
      0.0 ≤ p.x ∧ p.x ≤ s.width ∧ 0.0 ≤ p.y ∧ p.y ≤ s.height := by
  intro all
  obtain ⟨p, origin, -, -, top, -⟩ := all landscape (by decide) 7
  have place : origin? landscape (.digit 7) = some ⟨110.0, -344.0⟩ := by decide
  rw [place] at origin
  cases origin
  revert top
  decide

end Layout

end HeartKeypad
