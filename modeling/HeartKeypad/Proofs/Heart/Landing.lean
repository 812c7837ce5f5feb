import HeartKeypad.Heart.Basic
import HeartKeypad.Proofs.Number.Precision

/-!
# Where a rise ends

Once its animation is over a heart stays where it is.  If the animation has no whole
millisecond this is the target; otherwise it is the start of the rise and the way to the
target, subtracted and added again.

* `Double.landing` — the end of the whole way from one coordinate to another.
* `Double.Landing` — how far it is from the other coordinate.
* `Heart.positionAt_ended` — where a heart is after its animation.

### Why the target can be missed

The fraction of the way is one exactly: a quotient of two doubles of which the first is not
the smaller one is rounded to one or more, and is cut off there (`unitClamp_div`).  But the
way `finish - start` is rounded, and `start` and this way need not be `finish`.  They are if
the way is a double itself; they are off by a part in `2^52` of it otherwise, and where the
way is too long for a double they are infinite.
-/

namespace HeartKeypad

/-! ### The end of the way -/

namespace Double

variable {start finish x y : Float}

/-- **The end of the whole way** from a coordinate to another one. -/
def landing (start finish : Float) : Float := start + (finish - start)

/-- **How the end of the way lies** to the coordinate that it leads to. -/
structure Landing (start finish : Float) : Prop where
  /-- It is the coordinate if the way is a double itself. -/
  met : exact (finish - start) = exact finish - exact start →
    (landing start finish == finish) = true
  /-- It is off by a part in `2^52` of the way, or infinite. -/
  near : (landing start finish).isFinite = true →
    |exact (landing start finish) - exact finish| ≤ |exact finish - exact start| / 2 ^ 52
  /-- It is finite unless a coordinate is larger than `2^1022`. -/
  finite : |exact start| ≤ 2 ^ (1022 : Int) → |exact finish| ≤ 2 ^ (1022 : Int) →
    (landing start finish).isFinite = true

theorem landing_met (hs : start.isFinite = true) (hf : finish.isFinite = true)
    (same : exact (finish - start) = exact finish - exact start) :
    (landing start finish == finish) = true := by
  have way := (rounds_sub hf hs).closest_of_abs_le (same ▸ abs_exact_le_largest _)
  have stop := rounds_add hs way.finite
  rw [same, add_sub_cancel] at stop
  have closest := stop.closest_of_abs_le (abs_exact_le_largest finish)
  exact (beq_iff closest.finite hf).2 (closest.exact_eq hf rfl)

/-- What the way is off by is what start and way together are off by. -/
theorem start_add_way_near (hs : start.isFinite = true) (hf : finish.isFinite = true)
    (way : (finish - start).isFinite = true) :
    |exact start + exact (finish - start) - exact finish| ≤
      |exact finish - exact start| / 2 ^ 53 := by
  obtain ⟨closest, small⟩ := (rounds_sub hf hs).closest_of_isFinite way
  have error := closest.error_of_fixed ((Fixed.of_exact hf).sub (Fixed.of_exact hs)) small
  have split : exact start + exact (finish - start) - exact finish =
      exact (finish - start) - (exact finish - exact start) := by ring
  rwa [split]

theorem landing_near (hs : start.isFinite = true) (hf : finish.isFinite = true)
    (h : (landing start finish).isFinite = true) :
    |exact (landing start finish) - exact finish| ≤ |exact finish - exact start| / 2 ^ 52 := by
  have way : (finish - start).isFinite = true := (isFinite_of_add (isFinite_of_pack h)).2
  have error := start_add_way_near hs hf way
  -- the coordinate itself is a double that the end could have been
  have closer := ((rounds_add hs way).closest_of_isFinite h).1.closest finish hf
  rw [abs_sub_comm (exact finish)] at closer
  have triangle := abs_sub_le (exact (landing start finish))
    (exact start + exact (finish - start)) (exact finish)
  change |exact (landing start finish) - _| ≤ _ at closer
  linarith

theorem isFinite_landing (hs : start.isFinite = true) (hf : finish.isFinite = true)
    (smallS : |exact start| ≤ 2 ^ (1022 : Int)) (smallF : |exact finish| ≤ 2 ^ (1022 : Int)) :
    (landing start finish).isFinite = true := by
  have top := two_zpow_le_largest (le_refl 1023)
  have double : (2 : ℚ) ^ (1023 : Int) = 2 ^ (1022 : Int) * 2 := by
    rw [← zpow_add_one₀ (by norm_num)]
    norm_num
  rw [double] at top
  clear double
  generalize (2 : ℚ) ^ (1022 : Int) = u at *
  have length := abs_sub (exact finish) (exact start)
  have way := (rounds_sub hf hs).closest_of_abs_le (by linarith)
  have error := start_add_way_near hs hf way.finite
  have size := abs_sub_abs_le_abs_sub (exact start + exact (finish - start)) (exact finish)
  have nonneg := abs_nonneg (exact start)
  exact ((rounds_add hs way.finite).closest_of_abs_le (by linarith)).finite

theorem landing_landing (hs : start.isFinite = true) (hf : finish.isFinite = true) :
    Landing start finish :=
  ⟨landing_met hs hf, landing_near hs hf, isFinite_landing hs hf⟩

end Double

/-! ### The fraction of the way -/

open Double

/-- A fraction of one or more is cut off to one. -/
theorem unitClamp_eq_one {t : Float} (ht : t.isFinite = true) (full : 1 ≤ exact t) :
    unitClamp t = 1.0 := by
  have one : (1.0 : Float).isFinite = true := by decide
  have zero : exact 0.0 = 0 := exact_zero
  have notNegative : ¬ t < 0.0 := by
    rw [lt_iff ht (by decide), zero]
    linarith
  rw [unitClamp, if_neg notNegative]
  split
  · rfl
  · rename_i notMore
    rw [lt_iff one ht, exact_one] at notMore
    refine eq_of_exact_eq ht one (by linarith) ?_
    rw [exact_one]
    linarith

/-- A quotient is cut off to one unless the first number is the smaller one. -/
theorem unitClamp_div {x y : Float} (hx : x.isFinite = true) (hy : y.isFinite = true)
    (one : 1 ≤ exact y) (order : exact y ≤ exact x) : unitClamp (x / y) = 1.0 := by
  have pos : 0 < exact y := by linarith
  have bounds := abs_le.1 (abs_exact_le_largest x)
  have full : 1 ≤ exact x / exact y := (one_le_div pos).2 order
  have small : exact x / exact y ≤ exact x := div_le_self (by linarith) one
  have closest := (rounds_div hx hy pos.ne').closest_of_abs_le (by
    rw [abs_of_nonneg (by linarith)]
    linarith)
  refine unitClamp_eq_one closest.finite ?_
  rw [← exact_one] at full ⊢
  exact closest.le_exact (by decide) full

/-- A whole number of milliseconds between two instants has a closest double. -/
theorem closest_ofInt {n : Int} (nonneg : 0 ≤ n) (small : n ≤ 2 ^ 54) :
    Closest n (Float.ofInt n) := by
  obtain ⟨n, rfl⟩ := Int.eq_ofNat_of_zero_le nonneg
  have bound : (n : ℚ) ≤ 2 ^ 54 := by exact_mod_cast small
  have top := two_zpow_le_largest (by norm_num : ((54 : Nat) : Int) ≤ 1023)
  rw [zpow_natCast] at top
  rw [Int.cast_natCast]
  exact closest_ofNat (bound.trans top)

/-- **From the end of the animation on the fraction of the way is one.** -/
theorem unitClamp_ofInt_div {elapsed total : Int} (pos : 0 < total) (ended : total ≤ elapsed)
    (small : elapsed ≤ 2 ^ 54) :
    unitClamp (Float.ofInt elapsed / Float.ofInt total) = 1.0 := by
  have whole := closest_ofInt pos.le (ended.trans small)
  have passed := closest_ofInt (pos.le.trans ended) small
  have one : (1 : ℚ) ≤ total := by exact_mod_cast pos
  refine unitClamp_div passed.finite whole.finite ?_ ?_
  · rw [← exact_one] at one ⊢
    exact whole.le_exact (by decide) one
  · rcases Int.lt_or_eq_of_le ended with later | rfl
    · exact whole.exact_le_exact passed (by exact_mod_cast later)
    · exact le_refl _

/-! ### Hearts -/

/-- The coordinates of a point are finite. -/
def Point.Finite (p : Point) : Prop := p.x.isFinite = true ∧ p.y.isFinite = true

/-- Two points are equal in both coordinates, as numbers are: both zeros are one. -/
def Point.Same (p q : Point) : Prop := (p.x == q.x) = true ∧ (p.y == q.y) = true

/-- The end of the whole way from a point to another one. -/
def Point.landing (p q : Point) : Point := ⟨Double.landing p.x q.x, Double.landing p.y q.y⟩

theorem Point.Finite.same {p : Point} (h : p.Finite) : p.Same p :=
  ⟨(beq_iff h.1 h.1).2 rfl, (beq_iff h.2 h.2).2 rfl⟩

theorem Point.toward_of_full (p q : Point) {t : Float} (full : unitClamp t = 1.0) :
    p.toward q t = p.landing q := by
  show (⟨p.x + (q.x - p.x) * unitClamp t, p.y + (q.y - p.y) * unitClamp t⟩ : Point) = _
  rw [full, mul_one_eq, mul_one_eq]
  rfl

/-- The whole milliseconds of a span of nanoseconds, cut off toward zero. -/
def Span.milliseconds (d : Int) : Int := Int.tdiv d 1000000

namespace Heart

variable {h : Heart} {start now d : Int}

/-- The milliseconds passed since the rise are no fewer than those of the animation, and
within the calendar. -/
theorem elapsed_bounds (earliest : Instant.earliest ≤ start) (latest : now ≤ Instant.latest)
    (since : start ≤ now) (ended : start + d ≤ now) (long : 0 < Span.milliseconds d) :
    Span.milliseconds d ≤ Instant.millisecondsSince now start ∧
      Instant.millisecondsSince now start ≤ 2 ^ 54 := by
  unfold Span.milliseconds Instant.millisecondsSince Instant.earliest Instant.latest at *
  rw [Int.tdiv_eq_ediv_of_nonneg (by omega : 0 ≤ now - start)]
  rcases le_or_gt 0 d with forward | backward
  · rw [Int.tdiv_eq_ediv_of_nonneg forward] at long ⊢
    omega
  · have turned := Int.tdiv_nonneg (by omega : 0 ≤ -d) (by norm_num : (0 : Int) ≤ 1000000)
    rw [Int.neg_tdiv] at turned
    omega

/-- **After the animation a heart has landed.**  Without a whole millisecond of it the heart is
at its target; otherwise it is where the whole way to the target leads, at any later time. -/
theorem positionAt_ended (rising : h.riseStartedAt = some start) (position : h.position.Finite)
    (target : h.target.Finite) (earliest : Instant.earliest ≤ start)
    (latest : now ≤ Instant.latest) (since : start ≤ now) (ended : start + d ≤ now) :
    h.positionAt now (Span.milliseconds d) =
      (if Span.milliseconds d ≤ 0 then h.target else h.position.landing h.target) ∧
    ((h.positionAt now (Span.milliseconds d)).Same h.target ↔
      Span.milliseconds d ≤ 0 ∨ (h.position.landing h.target).Same h.target) ∧
    Landing h.position.x h.target.x ∧ Landing h.position.y h.target.y := by
  have place : h.positionAt now (Span.milliseconds d) =
      (if Span.milliseconds d ≤ 0 then h.target else h.position.landing h.target) := by
    rw [positionAt, rising]
    dsimp only
    split
    · rfl
    · rename_i long
      obtain ⟨order, small⟩ := elapsed_bounds earliest latest since ended (not_le.1 long)
      exact Point.toward_of_full _ _ (unitClamp_ofInt_div (not_le.1 long) order small)
  refine ⟨place, ?_, landing_landing position.1 target.1, landing_landing position.2 target.2⟩
  rw [place]
  split
  · rename_i short
    exact iff_of_true target.same (Or.inl short)
  · rename_i long
    exact (or_iff_right long).symm

/-- A heart that rises from `(100, 800)` to the point given, from the beginning of the epoch. -/
def rising (target : Point) : Heart where
  id := 0
  position := ⟨100.0, 800.0⟩
  target := target
  size := 10.0
  color := .pink
  phase := .rising
  createdAt := 0
  riseStartedAt := some 0

/-- Whole points are met: after two seconds the heart is at `(120, 50)`. -/
theorem positionAt_ended_whole :
    (rising ⟨120.0, 50.0⟩).positionAt 5000000000 (Span.milliseconds 2000000000) =
        (⟨120.0, 50.0⟩ : Point) ∧
      ((rising ⟨120.0, 50.0⟩).positionAt 5000000000 (Span.milliseconds 2000000000)).Same
        ⟨120.0, 50.0⟩ := by
  obtain ⟨place, same, -⟩ := @positionAt_ended (rising ⟨120.0, 50.0⟩) 0 5000000000 2000000000
    rfl ⟨by decide, by decide⟩ ⟨by decide, by decide⟩ (by decide) (by decide) (by decide)
    (by decide)
  exact ⟨place.trans (by decide), same.2 (Or.inr ⟨by decide, by decide⟩)⟩

/-- Not every heart ends at its target: on the way to `(120, 50.1)` the second coordinate ends
above it. -/
theorem target_missed : ¬ ∀ (h : Heart) (start now d : Int), h.riseStartedAt = some start →
    h.position.Finite → h.target.Finite → start ≤ now → start + d ≤ now →
    (h.positionAt now (Span.milliseconds d)).Same h.target := by
  intro always
  have same := (always (rising ⟨120.0, 50.1⟩) 0 2000000000 2000000000 rfl
    ⟨by decide, by decide⟩ ⟨by decide, by decide⟩ (by decide) (by decide)).2
  revert same
  decide +kernel

end Heart

end HeartKeypad
