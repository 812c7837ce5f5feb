import HeartKeypad.Proofs.Expression.Grammar
import HeartKeypad.Proofs.Expression.Negated
import HeartKeypad.Proofs.Expression.Result
import HeartKeypad.Proofs.Number.Decimal
import HeartKeypad.Proofs.Number.Exact

/-!
# Results evaluated again

A result is an expression too.  `Result.evaluate_format` says what comes of it when it is
evaluated: the same text, unless it ends in two zeros behind the point.  Then the double that
is read is whole, and the places are left out (`Result.settled`).

### Why nothing else can change

The double that is read is the nearest one to the text (`Expression.evaluate_written`), and
the double that the text was made from is within half a hundredth of it.  So the new one is as
close, and has the same hundredths (`Dyadic.scaled_of_closer`).  A text without places or with
two zeros denotes a natural number that is a double itself, so it is read exactly.

The nearest double can be another one than the text was made from, on the other side of it or
with more places, so that the values may differ; only what is shown of them is the same.
-/

namespace HeartKeypad

open Float.Model Float.Model.UnpackedFloat
open Double (Nearest Canonical ofSignificand)

/-! ### Digits read back -/

namespace Numeral

theorem digits_append {s t : Text} : Digits (s ++ t) ↔ Digits s ∧ Digits t :=
  List.forall_mem_append

theorem natFrom_nil (acc : Nat) : natFrom acc [] = acc := rfl

theorem natFrom_cons (acc : Nat) (c : Char) (s : Text) :
    natFrom acc (c :: s) = natFrom (10 * acc + digitValue c) s := by
  -- unfolded, so that the two accumulators need not be compared
  unfold natFrom
  cases s <;> rfl

theorem natFrom_append (acc : Nat) (s t : Text) :
    natFrom acc (s ++ t) = natFrom (natFrom acc s) t := by
  induction s generalizing acc with
  | nil => rfl
  | cons c s ih => rw [List.cons_append, natFrom_cons, natFrom_cons, ih]

/-- Digits behind a number shift it. -/
theorem natFrom_eq (acc : Nat) (s : Text) : natFrom acc s = acc * 10 ^ s.length + nat s := by
  induction s generalizing acc with
  | nil => rw [natFrom_nil, nat, natFrom_nil, List.length_nil, pow_zero, mul_one, add_zero]
  | cons c s ih =>
      rw [nat, natFrom_cons, natFrom_cons, ih, ih (10 * 0 + digitValue c), List.length_cons]
      generalize nat s = v
      ring

theorem nat_append (s t : Text) : nat (s ++ t) = nat s * 10 ^ t.length + nat t := by
  rw [nat, natFrom_append, natFrom_eq, nat, nat]

theorem nat_singleton (c : Char) : nat [c] = digitValue c := by
  rw [nat, natFrom_cons, natFrom_nil, mul_zero, zero_add]

theorem nat_zeros (k : Nat) : nat (List.replicate k '0') = 0 := by
  induction k with
  | zero => rfl
  | succ k ih =>
    rw [List.replicate_succ', nat_append, ih, nat_singleton]
    rfl

theorem digitValue_digitChar {n : Nat} (h : n < 10) : digitValue n.digitChar = n := by
  rw [digitValue, Nat.toNat_digitChar_of_lt_ten h, Nat.add_sub_cancel_left]

end Numeral

namespace Written

open Numeral

/-- **The digits of a natural number denote it.** -/
theorem nat_digits (n : Nat) : nat (digits n) = n := by
  induction n using Nat.strongRecOn with
  | _ n ih =>
      rw [digits, Nat.toDigits_eq_if (by omega)]
      split
      · rename_i small
        rw [nat_singleton, digitValue_digitChar small]
      · have tenth := ih (n / 10) (by omega)
        rw [digits] at tenth
        rw [nat_append, nat_singleton, tenth, digitValue_digitChar (Nat.mod_lt n (by omega)),
          List.length_singleton]
        omega

/-- A remainder takes as many places as there are. -/
theorem length_places {n p : Nat} (pos : 0 < p) (h : n < 10 ^ p) :
    (List.replicate (p - (digits n).length) '0' ++ digits n).length = p := by
  have short : (digits n).length ≤ p := by
    rw [digits]
    exact (Nat.length_toDigits_le_iff (by omega) pos).2 h
  rw [List.length_append, List.length_replicate]
  omega

/-- A number with places has digits on both sides of its point, together those of the number
in units of the last place. -/
theorem exists_places (n p : Nat) : ∃ ds fs, ds ≠ [] ∧ Digits ds ∧ Digits fs ∧
    nat (ds ++ fs) = n ∧ fs.length = p ∧
    withPoint n p = if p = 0 then ds else ds ++ '.' :: fs := by
  rcases Nat.eq_zero_or_pos p with rfl | pos
  · have none : Digits [] := fun _ h => nomatch h
    have value : nat (digits n ++ []) = n := by rw [List.append_nil, nat_digits]
    exact ⟨digits n, [], Nat.toDigits_ne_nil, (isNatural_digits n).digits, none, value, rfl, rfl⟩
  · have zeros (k : Nat) : Digits (List.replicate k '0') := by
      intro c hc
      rw [List.eq_of_mem_replicate hc]
      decide
    have length := length_places pos (Nat.mod_lt n (Nat.pow_pos (n := p) (by omega : 0 < 10)))
    refine ⟨digits (n / 10 ^ p), _, Nat.toDigits_ne_nil, (isNatural_digits _).digits,
      digits_append.2 ⟨zeros (p - (digits (n % 10 ^ p)).length),
        (isNatural_digits (n % 10 ^ p)).digits⟩, ?_, length, ?_⟩
    · rw [nat_append, length, nat_append, nat_zeros, nat_digits, nat_digits]
      have := Nat.div_add_mod' n (10 ^ p)
      omega
    · rw [withPoint, if_neg (Nat.ne_of_gt pos), if_neg (Nat.ne_of_gt pos)]
      rfl

/-- **A number with places is a literal**, of which the digits are those of the number in units
of the last place. -/
theorem literal_withPoint (n p : Nat) :
    Literal (withPoint n p) (Float.ofScientific n true p) := by
  obtain ⟨ds, fs, nonempty, whole, fraction, rfl, rfl, text⟩ := exists_places n p
  rw [text]
  split
  · rename_i none
    rw [List.length_eq_zero_iff.1 none]
    exact .whole nonempty whole
  · exact .pointed nonempty whole fraction

end Written

/-! ### Literals with a sign -/

namespace Expression

open Written (sign withPoint)

variable {t : Text} {x : Float} {r : ℚ}

theorem evaluate_of_operand {s : Text} (h : Chain.Operand s x) (finite : x.isFinite = true) :
    evaluate s = .ok x := by
  have spells := Spells.operand h Text.blanks_nil
  rw [List.append_nil] at spells
  rw [evaluate_of_spells spells]
  exact EvalFault.finite_eq_ok_iff.2 ⟨rfl, finite⟩

/-- **A literal with a sign has the value nearest to it.** -/
theorem evaluate_sign (literal : Numeral.Literal t x)
    (near : Nearest .positive r x.toModel.unpack) (negative : Bool) :
    ∃ w, evaluate (sign negative ++ t) = .ok w ∧
      Nearest (Double.signOf negative) r w.toModel.unpack := by
  cases negative with
  | false => exact ⟨x, evaluate_of_operand (.plain Text.blanks_nil literal) near.isFinite, near⟩
  | true =>
      have turned : Nearest .negative r (-1.0 * x).toModel.unpack := by
        rw [Double.mirror_neg_one_mul x]
        exact near.neg
      exact ⟨-1.0 * x, evaluate_of_operand
        (.negated Text.blanks_nil .hyphen Text.blanks_nil literal) turned.isFinite, turned⟩

/-- So has a number with places. -/
theorem evaluate_written (negative : Bool) {n p : Nat} (hp : p < 23)
    (small : (n / 10 ^ p : ℚ) ≤ Double.largest) :
    ∃ w, evaluate (sign negative ++ withPoint n p) = .ok w ∧
      Nearest (Double.signOf negative) (n / 10 ^ p) w.toModel.unpack :=
  evaluate_sign (Written.literal_withPoint n p) (Double.nearest_ofScientific hp small) negative

end Expression

/-! ### What is shown -/

namespace Result

open Written (sign withPoint digits)

variable {c d : Dyadic} {n : Nat}

/-- A whole number in writing: zero without a sign. -/
def natural (negative : Bool) (n : Nat) : Text :=
  if n = 0 then ['0'] else sign negative ++ digits n

/-- What is shown of an exact value. -/
def shown (d : Dyadic) : Text :=
  if d.isWhole then
    if d.significand = 0 then ['0'] else sign d.negative ++ withPoint (d.scaled 0) 0
  else sign d.negative ++ withPoint (d.scaled 2) 2

theorem format_eq_shown {x : Float} (h : Dyadic.ofFloat? x = some d) : format x = shown d := by
  rw [format, Written.fixed, Written.fixed, h]
  rfl

theorem shown_zero (negative : Bool) (e : Int) : shown ⟨negative, 0, e⟩ = ['0'] := by
  have whole : (⟨negative, 0, e⟩ : Dyadic).isWhole = true := by
    rw [Dyadic.isWhole_iff]
    exact ⟨0, by rw [Dyadic.magnitude, Nat.cast_zero, zero_mul]⟩
  rw [shown, whole]
  rfl

/-- A whole value is shown without places. -/
theorem shown_of_magnitude (h : d.magnitude = n) : shown d = natural d.negative n := by
  have whole : d.isWhole = true := Dyadic.isWhole_iff.2 ⟨n, h⟩
  have units : d.scaled 0 = n := Dyadic.scaled_eq (by rw [h, pow_zero, mul_one, sub_self]; norm_num)
  have zero : d.significand = 0 ↔ n = 0 := by
    rw [← Nat.cast_eq_zero (R := ℚ), ← Nat.cast_eq_zero (R := ℚ) (n := n), ← h, Dyadic.magnitude,
      mul_eq_zero, or_iff_left (Double.two_zpow_pos _).ne']
  rw [shown, if_pos whole, units, natural]
  simp only [zero]
  rfl

theorem shown_of_not_whole (h : ¬ d.isWhole = true) :
    shown d = sign d.negative ++ withPoint (d.scaled 2) 2 := if_neg h

theorem format_of_unpack {x : Float} {negative : Bool} {m : Nat} {e : Int}
    (h : x.toModel.unpack = ofSignificand (Double.signOf negative) m e) :
    format x = shown ⟨negative, m, e⟩ := by
  have sign : (Double.signOf negative == .negative) = negative := by cases negative <;> rfl
  rcases Nat.eq_zero_or_pos m with rfl | pos
  · -- a zero is shown without its sign
    have value : Dyadic.ofFloat? x = some ⟨Double.signOf negative == .negative, 0, 0⟩ := by
      rw [Dyadic.ofFloat?, h]
      rfl
    rw [format_eq_shown value, shown_zero, shown_zero]
  · rw [Double.ofSignificand_pos _ pos] at h
    have value : Dyadic.ofFloat? x = some ⟨Double.signOf negative == .negative, m, e⟩ := by
      rw [Dyadic.ofFloat?, h]
    rw [format_eq_shown value, sign]

/-- The double nearest to a number, by its exact value. -/
theorem exists_dyadic_of_nearest {x : Float} {negative : Bool} {r : ℚ}
    (h : Nearest (Double.signOf negative) r x.toModel.unpack) :
    ∃ c : Dyadic, c.negative = negative ∧ Canonical c.significand c.exponent ∧
      format x = shown c ∧
      ∀ d : Dyadic, Canonical d.significand d.exponent → |c.magnitude - r| ≤ |d.magnitude - r| := by
  obtain ⟨m, e, canonical, unpacked, closest⟩ := h
  exact ⟨⟨negative, m, e⟩, rfl, canonical, format_of_unpack unpacked, fun d hd => closest _ _ hd⟩

/-- A finite double, by its exact value. -/
theorem exists_dyadic {x : Float} (finite : x.isFinite = true) :
    ∃ d : Dyadic, Canonical d.significand d.exponent ∧ format x = shown d ∧
      Double.exact x = d.value := by
  obtain ⟨negative, m, e, canonical, unpacked⟩ := Double.exists_significand finite
  exact ⟨⟨negative, m, e⟩, canonical, format_of_unpack unpacked, Double.exact_of_unpack unpacked⟩

/-! ### Settled texts -/

/-- **A result with its places left out**, if both are zeros; zero loses its sign with them. -/
def settled (s : Text) : Text :=
  if ['.', '0', '0'] <:+ s then
    let whole := s.take (s.length - 3)
    if whole = ['0'] ∨ whole = ['-', '0'] then ['0'] else whole
  else s

theorem settled_of_not_suffix {s : Text} (h : ¬ ['.', '0', '0'] <:+ s) : settled s = s := if_neg h

theorem settled_append (whole : Text) : settled (whole ++ ['.', '0', '0']) =
    if whole = ['0'] ∨ whole = ['-', '0'] then ['0'] else whole := by
  have front : (whole ++ ['.', '0', '0']).take ((whole ++ ['.', '0', '0']).length - 3) = whole := by
    rw [List.length_append]
    exact List.take_left
  rw [settled, if_pos (List.suffix_append _ _)]
  dsimp only
  rw [front]

/-- Digits of a positive number behind a sign are not zero. -/
theorem sign_digits_ne_zero (negative : Bool) (pos : 0 < n) :
    sign negative ++ digits n ≠ ['0'] ∧ sign negative ++ digits n ≠ ['-', '0'] := by
  obtain ⟨c, ds, split, digit, nonzero, -⟩ := Written.digits_positive pos
  have plain : c ≠ '-' := by
    rintro rfl
    revert digit
    decide
  rw [split]
  cases negative <;> simp [sign, nonzero, plain]

/-- A whole number with two zeros for its places. -/
theorem settled_whole (negative : Bool) (n : Nat) :
    settled (sign negative ++ digits n ++ ['.', '0', '0']) = natural negative n := by
  rw [settled_append, natural]
  rcases Nat.eq_zero_or_pos n with rfl | pos
  · cases negative <;> rfl
  · obtain ⟨plain, minus⟩ := sign_digits_ne_zero negative pos
    rw [if_neg (Nat.ne_of_gt pos), if_neg (not_or.2 ⟨plain, minus⟩)]

theorem withPoint_two (n : Nat) : withPoint n 2 = digits (n / 100) ++
    '.' :: (List.replicate (2 - (digits (n % 100)).length) '0' ++ digits (n % 100)) := rfl

/-- A number with places that ends in two zeros is whole. -/
theorem suffix_withPoint_iff (negative : Bool) :
    ['.', '0', '0'] <:+ sign negative ++ withPoint n 2 ↔ n % 100 = 0 := by
  have places := Written.length_places (n := n % 100) (p := 2) (by omega) (Nat.mod_lt n (by omega))
  have value : Numeral.nat (List.replicate (2 - (digits (n % 100)).length) '0' ++
      digits (n % 100)) = n % 100 := by
    rw [Numeral.nat_append, Numeral.nat_zeros, Written.nat_digits, Nat.zero_mul, Nat.zero_add]
  rw [withPoint_two, ← List.append_assoc]
  constructor
  · intro suffix
    generalize List.replicate (2 - (digits (n % 100)).length) '0' ++ digits (n % 100) = ps at *
    have other : '.' :: ps <:+ sign negative ++ digits (n / 100) ++ '.' :: ps :=
      List.suffix_append _ _
    have same := (List.suffix_of_suffix_length_le suffix other (by simp [places])).eq_of_length
      (by simp [places])
    obtain rfl := (List.cons.inj same).2
    exact value.symm
  · intro zero
    rw [zero]
    exact List.suffix_append _ _

/-- What is left of a number with two places. -/
theorem settled_places (negative : Bool) (n : Nat) : settled (sign negative ++ withPoint n 2) =
    if n % 100 = 0 then natural negative (n / 100) else sign negative ++ withPoint n 2 := by
  split
  · rename_i zeros
    have text : withPoint n 2 = digits (n / 100) ++ ['.', '0', '0'] := by
      rw [withPoint_two, zeros]
      rfl
    rw [text, ← List.append_assoc, settled_whole]
  · rename_i some
    exact settled_of_not_suffix ((suffix_withPoint_iff negative).not.2 some)

theorem point_not_mem_natural (negative : Bool) : '.' ∉ natural negative n := by
  have digits : '.' ∉ digits n := by
    intro point
    have digit := (Written.isNatural_digits n).digits _ point
    rw [Numeral.isDigit_point] at digit
    cases digit
  rw [natural]
  split
  · decide
  · cases negative <;> simp [sign, digits]

theorem settled_natural (negative : Bool) (n : Nat) :
    settled (natural negative n) = natural negative n :=
  settled_of_not_suffix fun suffix =>
    point_not_mem_natural negative (suffix.subset List.mem_cons_self)

/-- What is settled stays so. -/
theorem settled_settled_shown (d : Dyadic) : settled (settled (shown d)) = settled (shown d) := by
  by_cases whole : d.isWhole = true
  · obtain ⟨n, hn⟩ := Dyadic.isWhole_iff.1 whole
    rw [shown_of_magnitude hn, settled_natural, settled_natural]
  · rw [shown_of_not_whole whole, settled_places]
    split
    · exact settled_natural _ _
    · rename_i some
      rw [settled_places, if_neg some]

/-! ### Results evaluated again -/

/-- A whole number is written with no places, and with a sign that fits. -/
theorem exists_sign_natural (negative : Bool) (n : Nat) : ∃ minus : Bool,
    natural negative n = sign minus ++ withPoint n 0 ∧ natural minus n = natural negative n := by
  rcases Nat.eq_zero_or_pos n with rfl | pos
  · exact ⟨false, rfl, rfl⟩
  · exact ⟨negative, if_neg (Nat.ne_of_gt pos), rfl⟩

/-- A whole result is read back exactly. -/
theorem evaluate_natural (hd : Canonical d.significand d.exponent) (h : d.magnitude = n)
    (negative : Bool) : ∃ w, Expression.evaluate (natural negative n) = .ok w ∧
      format w = natural negative n := by
  obtain ⟨minus, text, same⟩ := exists_sign_natural negative n
  have units : (n : ℚ) / 10 ^ 0 = d.magnitude := by rw [h, pow_zero, div_one]
  have small : (n : ℚ) / 10 ^ 0 ≤ Double.largest := units ▸ hd.le_largest
  obtain ⟨w, value, near⟩ := Expression.evaluate_written minus (by norm_num) small
  obtain ⟨c, negative, -, shows, closest⟩ := exists_dyadic_of_nearest near
  have exact := closest d hd
  rw [units, sub_self, abs_zero, abs_nonpos_iff, sub_eq_zero, h] at exact
  refine ⟨w, text ▸ value, ?_⟩
  rw [shows, shown_of_magnitude exact, negative, same]

/-- A result with places is read back with the same places, which are left out if they are
zeros. -/
theorem evaluate_places (hd : Canonical d.significand d.exponent) (h : ¬ d.isWhole = true) :
    ∃ w, Expression.evaluate (shown d) = .ok w ∧ format w = settled (shown d) := by
  have few := Dyadic.scaled_two_le hd h
  obtain ⟨w, value, near⟩ :=
    Expression.evaluate_written d.negative (by norm_num) (Dyadic.scaled_two_le_largest hd h)
  obtain ⟨c, negative, hc, shows, closest⟩ := exists_dyadic_of_nearest near
  rw [shown_of_not_whole h]
  refine ⟨w, value, ?_⟩
  rw [shows]
  by_cases zeros : d.scaled 2 % 100 = 0
  · -- the text denotes a natural number, which is a double
    have split : d.scaled 2 = 100 * (d.scaled 2 / 100) := by omega
    have units : (d.scaled 2 : ℚ) / 10 ^ 2 = (d.scaled 2 / 100 : Nat) := by
      rw [div_eq_iff (by norm_num)]
      exact_mod_cast split.trans (mul_comm _ _)
    rw [settled_places, if_pos zeros]
    rw [units] at closest
    generalize d.scaled 2 / 100 = n at *
    have bits : n < 2 ^ 53 := by
      have few : d.scaled 2 ≤ 100 * 2 ^ 52 + 1 := by exact_mod_cast few
      omega
    obtain ⟨k, g, canonical, whole⟩ := Double.exists_canonical_nat bits
    have exact := closest ⟨false, k, g⟩ canonical
    rw [Dyadic.magnitude, Dyadic.magnitude, whole, sub_self, abs_zero, abs_nonpos_iff,
      sub_eq_zero] at exact
    rw [shown_of_magnitude exact, negative]
  · have same := Dyadic.scaled_of_closer hc hd (closest d hd)
    have fraction : ¬ c.isWhole = true := by
      -- a whole number has no hundredths
      intro whole
      obtain ⟨n, hn⟩ := Dyadic.isWhole_iff.1 whole
      have hundreds : c.scaled 2 = n * 100 := Dyadic.scaled_eq (by
        rw [hn]
        push_cast
        norm_num)
      omega
    rw [settled_places, if_neg zeros, shown_of_not_whole fraction, negative, same]

/-- **A result evaluates again**, to what is shown without places that are zeros. -/
theorem evaluate_format {x : Float} (finite : x.isFinite = true) :
    ∃ w, Expression.evaluate (format x) = .ok w ∧ format w = settled (format x) := by
  obtain ⟨d, hd, shows, -⟩ := exists_dyadic finite
  rw [shows]
  by_cases whole : d.isWhole = true
  · obtain ⟨n, hn⟩ := Dyadic.isWhole_iff.1 whole
    rw [shown_of_magnitude hn, settled_natural]
    exact evaluate_natural hd hn d.negative
  · exact evaluate_places hd whole

end Result

end HeartKeypad
