import HeartKeypad.Expression.Result
import HeartKeypad.Expression.Value
import HeartKeypad.Proofs.Except
import HeartKeypad.Proofs.Number.Finite
import HeartKeypad.Proofs.Number.Literal

/-!
# The texts of results

A finite double is shown as a decimal without an exponent: an optional minus, a whole
part that starts with a zero only if it is one, and nothing or two places behind a point.
`Result.IsText` is that shape, and `Result.isText_format` the statement that every finite
double is shown in it.

### What the shape rests on

Numbers are written from natural numbers only, so the shape follows from that of their
digits: `Written.isNatural_digits` for the part in front of the point, and
`Written.isPlaces_tail` for the remainder below a hundred, which is padded to two places.
-/

namespace HeartKeypad

namespace Result

open Numeral

/-- A natural number in writing: a zero, or digits of which the first is none. -/
inductive IsNatural : Text → Prop
  | zero : IsNatural ['0']
  | positive {c : Char} {ds : Text} : isDigit c = true → c ≠ '0' → Digits ds →
      IsNatural (c :: ds)

/-- What follows the whole part: nothing, or a point and two digits. -/
inductive IsPlaces : Text → Prop
  | none : IsPlaces []
  | two {a b : Char} : isDigit a = true → isDigit b = true → IsPlaces ['.', a, b]

/-- **The texts of results.** -/
inductive IsText : Text → Prop
  | plain {whole places : Text} : IsNatural whole → IsPlaces places →
      IsText (whole ++ places)
  | negative {whole places : Text} : IsNatural whole → IsPlaces places →
      IsText ('-' :: (whole ++ places))

theorem IsNatural.digits {s : Text} (h : IsNatural s) : Digits s := by
  cases h with
  | zero =>
      intro c hc
      rw [List.mem_singleton.1 hc]
      decide
  | positive hc _ hds => exact List.forall_mem_cons.2 ⟨hc, hds⟩

theorem isText_zero : IsText ['0'] := IsText.plain IsNatural.zero IsPlaces.none

end Result

/-! ### Digits -/

namespace Written

open Numeral Result

theorem isDigit_digitChar {n : Nat} (h : n < 10) : isDigit n.digitChar = true := by
  rw [isDigit, Nat.toNat_digitChar_of_lt_ten h, Bool.and_eq_true, decide_eq_true_eq,
    decide_eq_true_eq]
  omega

/-- The digits of a positive number, of which the first is no zero. -/
theorem digits_positive {n : Nat} (pos : 0 < n) :
    ∃ c ds, digits n = c :: ds ∧ isDigit c = true ∧ c ≠ '0' ∧ Digits ds := by
  induction n using Nat.strongRecOn with
  | _ n ih =>
      rw [digits, Nat.toDigits_eq_if (by omega)]
      split
      · rename_i small
        refine ⟨n.digitChar, [], rfl, isDigit_digitChar small, ?_, fun _ h => nomatch h⟩
        rw [ne_eq, Nat.digitChar_eq_zero]
        omega
      · -- the first digit is that of the tenth, which is positive too
        obtain ⟨c, ds, split, hc, nonzero, hds⟩ := ih (n / 10) (by omega) (by omega)
        rw [digits] at split
        refine ⟨c, ds ++ [(n % 10).digitChar], by rw [split, List.cons_append], hc,
          nonzero, fun d hd => ?_⟩
        rcases List.mem_append.1 hd with hd | hd
        · exact hds d hd
        · rw [List.mem_singleton.1 hd]
          exact isDigit_digitChar (Nat.mod_lt n (by omega))

/-- The digits of a natural number start with a zero only if it is zero. -/
theorem isNatural_digits (n : Nat) : IsNatural (digits n) := by
  rcases Nat.eq_zero_or_pos n with rfl | pos
  · exact IsNatural.zero
  · obtain ⟨c, ds, split, hc, nonzero, hds⟩ := digits_positive pos
    rw [split]
    exact IsNatural.positive hc nonzero hds

/-- A remainder below a hundred takes two places. -/
theorem isPlaces_tail {n : Nat} (h : n < 100) :
    IsPlaces ('.' :: (List.replicate (2 - (digits n).length) '0' ++ digits n)) := by
  have hds := (isNatural_digits n).digits
  have short : (digits n).length ≤ 2 := by
    rw [digits]
    exact (Nat.length_toDigits_le_iff (by omega) (by omega)).2 h
  have nonempty : digits n ≠ [] := Nat.toDigits_ne_nil
  generalize digits n = ds at *
  match ds with
  | [] => exact absurd rfl nonempty
  | [a] => exact IsPlaces.two (by decide) (hds a (by simp))
  | [a, b] => exact IsPlaces.two (hds a (by simp)) (hds b (by simp))
  | _ :: _ :: _ :: _ => simp at short

/-- A natural number with no places or two, and a sign in front of it. -/
theorem isText_sign (negative : Bool) (n : Nat) {places : Nat}
    (hp : places = 0 ∨ places = 2) : IsText (sign negative ++ withPoint n places) := by
  obtain ⟨whole, tail, split, hw, ht⟩ : ∃ whole tail, withPoint n places = whole ++ tail ∧
      IsNatural whole ∧ IsPlaces tail := by
    rcases hp with rfl | rfl
    · exact ⟨digits n, [], by rw [withPoint, if_pos rfl, List.append_nil],
        isNatural_digits n, IsPlaces.none⟩
    · exact ⟨_, _, by rw [withPoint, if_neg (by decide)], isNatural_digits _,
        isPlaces_tail (Nat.mod_lt n (by omega))⟩
  rw [split]
  cases negative with
  | false =>
      rw [sign, if_neg Bool.false_ne_true, List.nil_append]
      exact IsText.plain hw ht
  | true =>
      rw [sign, if_pos rfl, List.singleton_append]
      exact IsText.negative hw ht

/-- A finite double with no places or two. -/
theorem isText_fixed {x : Float} (hx : x.isFinite = true) {places : Nat}
    (hp : places = 0 ∨ places = 2) : IsText (fixed places x) := by
  rw [← Dyadic.isSome_ofFloat?] at hx
  obtain ⟨d, hd⟩ := Option.isSome_iff_exists.1 hx
  rw [fixed, hd]
  exact isText_sign d.negative (d.scaled places) hp

end Written

namespace Result

/-- **Every finite double is shown as a result text.** -/
theorem isText_format {x : Float} (hx : x.isFinite = true) : IsText (format x) := by
  unfold format
  split
  · split
    · split
      · exact isText_zero
      · exact Written.isText_fixed hx (Or.inl rfl)
    · exact Written.isText_fixed hx (Or.inr rfl)
  · exact Written.isText_fixed hx (Or.inr rfl)

/-- A bare number is a finite literal, with its sign turned behind a minus. -/
theorem exists_literal_of_readBare? {minus : Bool} {body : Text} {x : Float}
    (h : readBare? minus body = some x) :
    ∃ y : Float, Numeral.Literal body y ∧ y.isFinite = true ∧ x = if minus then -y else y := by
  unfold readBare? at h
  split at h
  · rename_i y read
    split at h
    · rename_i finite
      exact ⟨y, Numeral.read?_eq_some_iff.1 read, finite, (Option.some.inj h).symm⟩
    · cases h
  · cases h

/-- A number is read back from a display only if it is finite. -/
theorem isFinite_of_readBare? {minus : Bool} {body : Text} {x : Float}
    (h : readBare? minus body = some x) : x.isFinite = true := by
  obtain ⟨y, -, finite, rfl⟩ := exists_literal_of_readBare? h
  cases minus with
  | false => exact finite
  | true => exact Double.isFinite_neg finite

/-- A number is read behind at most one sign. -/
theorem read?_cases {s : Text} {x : Float} (h : read? s = some x) :
    (∃ minus body, s = Written.sign minus ++ body ∧ readBare? minus body = some x) ∨
      ∃ body, s = '+' :: body ∧ readBare? false body = some x := by
  unfold read? at h
  split at h
  · exact Or.inl ⟨true, _, rfl, h⟩
  · exact Or.inr ⟨_, rfl, h⟩
  · exact Or.inl ⟨false, _, rfl, h⟩

/-- In front of digits and points, a minus or no sign is taken off. -/
theorem read?_sign_append (minus : Bool) {body : Text} (h : Numeral.Numerals body) :
    read? (Written.sign minus ++ body) = readBare? minus body := by
  cases minus with
  | true => rfl
  | false =>
      show read? body = _
      unfold read?
      split
      · cases h '-' List.mem_cons_self
      · cases h '+' List.mem_cons_self
      · rfl

theorem isFinite_of_read? {s : Text} {x : Float} (h : read? s = some x) :
    x.isFinite = true := by
  rcases read?_cases h with ⟨minus, body, -, bare⟩ | ⟨body, -, bare⟩
  · exact isFinite_of_readBare? bare
  · exact isFinite_of_readBare? bare

end Result

namespace Expression

/-- A text has finite values only. -/
theorem isFinite_of_evaluate {s : Text} {x : Float} (h : evaluate s = .ok x) :
    x.isFinite = true := by
  unfold evaluate at h
  split at h
  · rename_i chain _
    -- the last step of both passes is the test that lets `x` through
    obtain ⟨terms, -, h⟩ := bind_eq_ok_iff.1 h
    obtain ⟨sum, -, h⟩ := bind_eq_ok_iff.1 h
    rw [EvalFault.finite] at h
    split at h
    · rename_i finite
      obtain rfl : sum = x := Except.ok.inj h
      exact finite
    · cases h
  · cases h

end Expression

end HeartKeypad
