import HeartKeypad.Proofs.Expression.Tolerance
import HeartKeypad.Proofs.Number.Order

/-!
# Results in order

What is shown of a double is near to it and in the same order as the doubles are: whole numbers
without places and other numbers with two of them lie on one scale.

* `Result.exists_hundredths` — every text of a result denotes a number of hundredths.
* `Result.number_format_mono` — the texts of doubles are in the order of the doubles.
* `Result.format_neg` — a negative number is shown as its magnitude behind a minus.
* `Result.format_accurate` — all of it, and how far the text is from the double.

### Why the two ways to write a number fit together

A whole number denotes its hundredths too, if a text has no places.  So both kinds of text are
points of one grid, each half of its unit away from its double at most.  If two doubles were
shown in the wrong order, their texts would be a whole unit apart, and then both doubles lie in
the middle between them.  So they have the same value and are shown alike.
-/

namespace HeartKeypad

open Double (exact ofSignificand signOf)

namespace Result

variable {v w : Float}

/-! ### The grid -/

/-- What is shown of a value denotes its hundredths, with places or without. -/
theorem number_shown_eq (d : Dyadic) :
    number (shown d) = withSign d.negative (d.scaled 2 / 10 ^ 2) := by
  by_cases whole : d.isWhole = true
  · obtain ⟨n, hn⟩ := Dyadic.isWhole_iff.1 whole
    have hundredths : d.scaled 2 = n * 100 := Dyadic.scaled_eq (by
      rw [hn]
      push_cast
      norm_num)
    rw [number_shown_of_whole whole, Dyadic.value, hn, hundredths]
    congr 1
    push_cast
    ring
  · rw [shown_of_not_whole whole, number_written]

/-- **The text of a double denotes a number of hundredths.** -/
theorem exists_hundredths (finite : v.isFinite = true) :
    ∃ k : Int, number (format v) = k / 100 := by
  obtain ⟨d, -, shows, -⟩ := exists_dyadic finite
  rw [shows, number_shown_eq]
  cases d.negative with
  | false => exact ⟨d.scaled 2, by norm_num [withSign]⟩
  | true => exact ⟨-d.scaled 2, by norm_num [withSign, neg_div]⟩

/-! ### The order -/

/-- Doubles with one value are shown alike, and the two zeros too. -/
theorem number_format_congr (hv : v.isFinite = true) (hw : w.isFinite = true)
    (same : exact v = exact w) : number (format v) = number (format w) := by
  by_cases zero : exact v = 0
  · have whole : ∃ k : Int, exact v = k := ⟨0, by rw [zero, Int.cast_zero]⟩
    rw [(number_format hv).2 whole, (number_format hw).2 (same ▸ whole), same]
  · rw [Double.eq_of_exact_eq hv hw zero same]

/-- **The texts of doubles are in the order of the doubles.** -/
theorem number_format_mono (hv : v.isFinite = true) (hw : w.isFinite = true)
    (order : exact v ≤ exact w) : number (format v) ≤ number (format w) := by
  by_contra wrong
  have nearV := abs_le.1 (number_format hv).1
  have nearW := abs_le.1 (number_format hw).1
  have apart : number (format w) + 1 / 100 ≤ number (format v) := by
    obtain ⟨k, hk⟩ := exists_hundredths hv
    obtain ⟨l, hl⟩ := exists_hundredths hw
    rw [hk, hl] at wrong ⊢
    have less : (l : ℚ) < k := by linarith
    have next : (l : ℚ) + 1 ≤ k := by exact_mod_cast less
    linarith
  have same : exact v = exact w := le_antisymm order (by linarith)
  exact wrong (number_format_congr hv hw same).le

/-! ### The sign -/

theorem shown_negative {m : Nat} (h : 0 < m) (e : Int) :
    shown ⟨true, m, e⟩ = '-' :: shown ⟨false, m, e⟩ := by
  have nonzero : ¬ m = 0 := Nat.ne_of_gt h
  have whole : (⟨true, m, e⟩ : Dyadic).isWhole = (⟨false, m, e⟩ : Dyadic).isWhole := rfl
  simp only [shown, whole, if_neg nonzero]
  split <;> rfl

/-- **A negative number is shown as its magnitude behind a minus.** -/
theorem format_neg (finite : v.isFinite = true) (pos : 0 < exact v) :
    format (-v) = '-' :: format v := by
  obtain ⟨negative, m, e, -, unpacked⟩ := Double.exists_significand finite
  rw [Double.exact_of_unpack unpacked] at pos
  obtain rfl : negative = false := by
    by_contra minus
    rw [Bool.not_eq_false] at minus
    rw [minus] at pos
    exact (neg_nonpos.2 (Double.magnitude_nonneg m e)).not_gt pos
  have some : 0 < m := by
    refine Nat.pos_of_ne_zero ?_
    rintro rfl
    rw [Nat.cast_zero, zero_mul, withSign_zero] at pos
    exact pos.false
  have turned : (-v).toModel.unpack = ofSignificand (signOf true) m e := by
    rw [Double.unpack_neg, unpacked, Double.ofSignificand_pos _ some,
      Double.ofSignificand_pos _ some]
    rfl
  rw [format_of_unpack unpacked, format_of_unpack turned, shown_negative some]

/-! ### Accuracy -/

/-- **What is shown of a double** denotes a number half a hundredth away from it at most, and
the double itself if it is whole; what is shown of a larger double is not smaller; and the
negative of a positive double is shown behind a minus. -/
theorem format_accurate (finite : v.isFinite = true) :
    |number (format v) - exact v| ≤ 1 / 200 ∧
      ((∃ k : Int, exact v = k) → number (format v) = exact v) ∧
      (∀ w : Float, w.isFinite = true → v ≤ w → number (format v) ≤ number (format w)) ∧
      (0 < v → format (-v) = '-' :: format v) := by
  obtain ⟨near, whole⟩ := number_format finite
  refine ⟨near, whole, fun w hw order => ?_, fun pos => ?_⟩
  · exact number_format_mono finite hw ((Double.le_iff finite hw).1 order)
  · exact format_neg finite ((Double.pos_iff finite).1 pos)

/-- `0.999` is shown as `1.00`, which is not above what is shown of `1`. -/
theorem format_accurate_at_carry :
    format 0.999 = ['1', '.', '0', '0'] ∧ |number (format 0.999) - exact 0.999| ≤ 1 / 200 ∧
      number (format 0.999) ≤ number (format 1.0) ∧
      format (-0.999) = ['-', '1', '.', '0', '0'] := by
  have text : format 0.999 = ['1', '.', '0', '0'] := by decide
  obtain ⟨near, -, order, minus⟩ := format_accurate (v := 0.999) (by decide)
  refine ⟨text, near, order 1.0 (by decide) (by decide), ?_⟩
  rw [minus (by decide), text]

end Result

end HeartKeypad
