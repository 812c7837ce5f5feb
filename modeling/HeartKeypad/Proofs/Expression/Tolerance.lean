import HeartKeypad.Proofs.Expression.Reread

/-!
# How far a result is from its text

A result that is shown is rounded twice when it is read back: to two places in the text, and
to the double closest to those.

* `Numeral.rational`, `Result.number` — the number that a text denotes.
* `Result.number_format` — the text of a double is half a hundredth away from it at most.
* `Result.read?_format` — it is read back as the double closest to the number it denotes.
* `Expression.result_reads_back` — how far the double that is read is from the result.

### Why half a hundredth is not enough

The second rounding may go in the direction of the first.  An eighth is shown as `0.12`, half
a hundredth below it, and the double closest to `0.12` lies a little lower still.  So does the
one closest to `0.13` lie a little higher, so that no text with two places is closer.  What is
added is the distance of the decimal to the doubles, a part in `2^53` of it; and as the result
is a double too, it is less than half a hundredth for the largest results with places.
-/

namespace HeartKeypad

open Double (Nearest Canonical Closest exact)

/-! ### The number that a text denotes -/

namespace Numeral

/-- The number `whole.fraction`, both runs of digits. -/
def rationalOfParts (whole fraction : Text) : ℚ :=
  nat (whole ++ fraction) / 10 ^ fraction.length

/-- **The number that a well-formed run denotes.** -/
def rational (s : Text) : ℚ :=
  rationalOfParts (s.takeWhile isDigit) ((s.dropWhile isDigit).drop 1)

theorem rational_whole {ds : Text} (h : Digits ds) : rational ds = nat ds := by
  rw [rational, List.takeWhile_eq_self_iff.2 h, List.dropWhile_eq_nil_iff.2 h, List.drop_nil,
    rationalOfParts, List.append_nil, List.length_nil, pow_zero, div_one]

theorem rational_pointed {ds fs : Text} (h : Digits ds) :
    rational (ds ++ '.' :: fs) = nat (ds ++ fs) / 10 ^ fs.length := by
  rw [rational, h.takeWhile, h.dropWhile, List.drop_one, List.tail_cons, rationalOfParts]

end Numeral

namespace Result

/-- **The number that a bare number denotes**, with its sign. -/
def number : Text → ℚ
  | '-' :: body => withSign true (Numeral.rational body)
  | '+' :: body => Numeral.rational body
  | body => Numeral.rational body

end Result

namespace Written

open Numeral

/-- A number with places denotes itself. -/
theorem rational_withPoint (n p : Nat) : rational (withPoint n p) = n / 10 ^ p := by
  obtain ⟨ds, fs, -, whole, -, rfl, rfl, text⟩ := exists_places n p
  rw [text]
  split
  · rename_i none
    rw [rational_whole whole, none, List.length_eq_zero_iff.1 none, List.append_nil, pow_zero,
      div_one]
  · exact rational_pointed whole

end Written

namespace Result

open Written (sign withPoint digits)

variable {t : Text} {x : Float} {d : Dyadic} {r : ℚ} {n p : Nat}

/-- A literal does not start with a sign. -/
theorem exists_front (h : Numeral.Literal t x) : ∃ c s, t = c :: s ∧ c ≠ '-' ∧ c ≠ '+' := by
  obtain ⟨c, s, rfl⟩ := List.exists_cons_of_ne_nil h.ne_nil
  have numeral := h.numeral c List.mem_cons_self
  refine ⟨c, s, rfl, ?_, ?_⟩ <;> rintro rfl <;> cases numeral

theorem number_literal (h : Numeral.Literal t x) : number t = Numeral.rational t := by
  obtain ⟨c, s, rfl, minus, plus⟩ := exists_front h
  unfold number
  split
  · exact absurd (List.cons.inj ‹_›).1 minus
  · exact absurd (List.cons.inj ‹_›).1 plus
  · rfl

theorem number_written (negative : Bool) (n p : Nat) :
    number (sign negative ++ withPoint n p) = withSign negative (n / 10 ^ p) := by
  cases negative with
  | false =>
      exact (number_literal (Written.literal_withPoint n p)).trans (Written.rational_withPoint n p)
  | true => exact congrArg (withSign true) (Written.rational_withPoint n p)

theorem number_natural (negative : Bool) (n : Nat) :
    number (natural negative n) = withSign negative n := by
  rw [natural]
  split
  · rename_i zero
    rw [zero, Nat.cast_zero, withSign_zero]
    decide +kernel
  · have units := number_written negative n 0
    rwa [pow_zero, div_one] at units

/-! ### Texts of results -/

/-- A whole double is shown as itself. -/
theorem number_shown_of_whole (h : d.isWhole = true) : number (shown d) = d.value := by
  obtain ⟨n, hn⟩ := Dyadic.isWhole_iff.1 h
  rw [shown_of_magnitude hn, number_natural, Dyadic.value, hn]

/-- Any double is shown within half a hundredth. -/
theorem number_shown (d : Dyadic) : |number (shown d) - d.value| ≤ 1 / 200 := by
  by_cases whole : d.isWhole = true
  · rw [number_shown_of_whole whole, sub_self, abs_zero]
    norm_num
  · have half := d.scaled_near 2
    rw [shown_of_not_whole whole, number_written, Dyadic.value, withSign_sub, abs_withSign]
    rw [abs_le] at half ⊢
    constructor <;> linarith

/-- **The text of a double** denotes a number half a hundredth away from it at most, and the
double itself if it is whole. -/
theorem number_format (finite : x.isFinite = true) :
    |number (format x) - exact x| ≤ 1 / 200 ∧
      ((∃ k : Int, exact x = k) → number (format x) = exact x) := by
  obtain ⟨d, -, shows, value⟩ := exists_dyadic finite
  rw [shows, value]
  refine ⟨number_shown d, ?_⟩
  rintro ⟨k, hk⟩
  refine number_shown_of_whole (Dyadic.isWhole_iff.2 ⟨k.natAbs, ?_⟩)
  have magnitude := abs_withSign d.negative d.magnitude
  rw [← Dyadic.value, hk, abs_of_nonneg d.magnitude_nonneg] at magnitude
  rw [← magnitude, Nat.cast_natAbs, Int.cast_abs]

/-! ### Read back -/

/-- A literal with a sign is read as the double nearest to it. -/
theorem read?_sign (literal : Numeral.Literal t x)
    (near : Nearest .positive r x.toModel.unpack) (negative : Bool) :
    ∃ w, read? (sign negative ++ t) = some w ∧
      Nearest (Double.signOf negative) r w.toModel.unpack := by
  have bare : readBare? negative t = some (if negative then -x else x) := by
    rw [readBare?, Numeral.read?_eq_some_iff.2 literal]
    exact if_pos near.isFinite
  refine ⟨if negative then -x else x, (read?_sign_append negative literal.numeral).trans bare, ?_⟩
  cases negative with
  | false => exact near
  | true =>
      show Nearest .negative r (-x).toModel.unpack
      rw [Double.unpack_neg]
      exact near.neg

/-- A number with places is read as the double closest to it. -/
theorem read?_written (negative : Bool) (hp : p < 23) (small : (n / 10 ^ p : ℚ) ≤ Double.largest) :
    ∃ w, read? (sign negative ++ withPoint n p) = some w ∧
      Closest (number (sign negative ++ withPoint n p)) w := by
  obtain ⟨w, read, near⟩ :=
    read?_sign (Written.literal_withPoint n p) (Double.nearest_ofScientific hp small) negative
  refine ⟨w, read, ?_⟩
  rw [number_written]
  exact near.closest (by positivity)

/-- **The text of a double is read back as the double closest to it.** -/
theorem read?_format (finite : x.isFinite = true) :
    ∃ w, read? (format x) = some w ∧ Closest (number (format x)) w := by
  obtain ⟨d, hd, shows, -⟩ := exists_dyadic finite
  rw [shows]
  by_cases whole : d.isWhole = true
  · obtain ⟨n, hn⟩ := Dyadic.isWhole_iff.1 whole
    have small : (n / 10 ^ 0 : ℚ) ≤ Double.largest := by
      rw [pow_zero, div_one, ← hn]
      exact hd.le_largest
    obtain ⟨minus, text, -⟩ := exists_sign_natural d.negative n
    rw [shown_of_magnitude hn, text]
    exact read?_written minus (by norm_num) small
  · rw [shown_of_not_whole whole]
    exact read?_written d.negative (by norm_num) (Dyadic.scaled_two_le_largest hd whole)

/-- The double closest to a number of hundredths is off by a part in `2^53` of it. -/
theorem relative_hundredths {w : Float} {negative : Bool}
    (h : Closest (withSign negative (n / 10 ^ 2)) w) (small : (n / 10 ^ 2 : ℚ) ≤ Double.largest) :
    |exact w - withSign negative (n / 10 ^ 2)| ≤ n / 10 ^ 2 / 2 ^ 53 := by
  rcases Nat.eq_zero_or_pos n with rfl | pos
  · -- zero is a double itself
    obtain ⟨y, finite, zero⟩ := Double.exists_double negative Double.canonical_zero
    rw [Nat.cast_zero, zero_mul] at zero
    rw [Nat.cast_zero, zero_div, zero_div] at *
    rw [h.exact_eq finite zero, sub_self, abs_zero]
  · refine h.relative ?_ small
    have unit : (1 : ℚ) ≤ n := by exact_mod_cast pos
    calc (2 : ℚ) ^ (-1022 : Int) ≤ 2 ^ (-7 : Int) :=
          zpow_le_zpow_right₀ (by norm_num) (by norm_num)
      _ ≤ 1 / 10 ^ 2 := by norm_num
      _ ≤ n / 10 ^ 2 := div_le_div_of_nonneg_right unit (by norm_num)

/-- **What is read is off by a part in `2^53`** of the number that is shown. -/
theorem relative_format {w : Float} (finite : x.isFinite = true)
    (h : Closest (number (format x)) w) :
    |exact w - number (format x)| ≤ |number (format x)| / 2 ^ 53 := by
  obtain ⟨d, hd, shows, value⟩ := exists_dyadic finite
  rw [shows] at h ⊢
  by_cases whole : d.isWhole = true
  · rw [number_shown_of_whole whole, ← value] at h ⊢
    rw [h.exact_eq finite rfl, sub_self, abs_zero]
    positivity
  · have nonneg : (0 : ℚ) ≤ d.scaled 2 / 10 ^ 2 := by positivity
    rw [shown_of_not_whole whole, number_written] at h ⊢
    rw [abs_withSign, abs_of_nonneg nonneg]
    exact relative_hundredths h (Dyadic.scaled_two_le_largest hd whole)

/-- It is less than a hundredth away from the double that was shown. -/
theorem reread_lt {w : Float} (finite : x.isFinite = true) (h : Closest (number (format x)) w) :
    |exact w - exact x| < 1 / 100 := by
  have shown := (number_format finite).1
  have closer := h.closest x finite
  rw [abs_sub_comm (exact x)] at closer
  have triangle := abs_sub_le (exact w) (number (format x)) (exact x)
  refine lt_of_le_of_ne (by linarith) fun apart => ?_
  rcases (abs_eq (by norm_num)).1 apart with above | below
  · exact Double.exact_ne_hundredth h.finite finite above
  · exact Double.exact_ne_hundredth finite h.finite (by linarith)

end Result

namespace Expression

open Result (number format read?)

/-- **A result is read back from its text**, which denotes a number half a hundredth away at
most, as the double closest to that number.  So the double is half a hundredth and a part in
`2^53` of the number away at most, it is less than a hundredth away however large the result
is, and a whole result is read back exactly. -/
theorem result_reads_back {s : Text} {v : Float} (h : evaluate s = .ok v) :
    |number (format v) - exact v| ≤ 1 / 200 ∧
      ∃ p, read? (format v) = some p ∧ Closest (number (format v)) p ∧
        |exact p - exact v| ≤ 1 / 200 + |number (format v)| / 2 ^ 53 ∧
        |exact p - exact v| < 1 / 100 ∧
        ((∃ k : Int, exact v = k) → exact p = exact v) := by
  have finite := isFinite_of_evaluate h
  obtain ⟨shown, whole⟩ := Result.number_format finite
  obtain ⟨p, read, closest⟩ := Result.read?_format finite
  refine ⟨shown, p, read, closest, ?_, Result.reread_lt finite closest, fun integer => ?_⟩
  · have triangle := abs_sub_le (exact p) (number (format v)) (exact v)
    have part := Result.relative_format finite closest
    linarith
  · rw [whole integer] at closest
    exact closest.exact_eq finite rfl

/-- The values of an eighth and of the doubles that its two neighbours with two places are read
as. -/
theorem exact_near_eighth : exact 0.125 = 1 / 8 ∧
    exact 0.12 = 8646911284551352 / 2 ^ 56 ∧ exact 0.13 = 4683743612465316 / 2 ^ 55 := by
  decide +kernel

/-- An eighth is read back within a hundredth. -/
theorem eighth_reads_back : evaluate ['1', '÷', '8'] = .ok 0.125 ∧
    ∃ p, read? (format 0.125) = some p ∧ |exact p - exact 0.125| < 1 / 100 := by
  have value : evaluate ['1', '÷', '8'] = .ok 0.125 := by decide +kernel
  obtain ⟨-, p, read, -, -, within, -⟩ := result_reads_back value
  exact ⟨value, p, read, within⟩

/-- An eighth is not read back within half a hundredth, and would not be from the text on the
other side of it. -/
theorem eighth_exceeds_half_hundredth :
    (¬ ∀ (s : Text) (v : Float), evaluate s = .ok v →
      ∃ p, read? (format v) = some p ∧ |exact p - exact v| ≤ 1 / 200) ∧
    1 / 200 < |exact 0.13 - exact 0.125| := by
  obtain ⟨eighth, below, above⟩ := exact_near_eighth
  refine ⟨fun all => ?_, ?_⟩
  · obtain ⟨p, read, within⟩ := all ['1', '÷', '8'] 0.125 (by decide +kernel)
    have shown : read? (format 0.125) = some 0.12 := by decide
    obtain rfl : 0.12 = p := Option.some.inj (shown.symm.trans read)
    rw [below, eighth] at within
    norm_num at within
  · rw [above, eighth]
    norm_num

end Expression

end HeartKeypad
