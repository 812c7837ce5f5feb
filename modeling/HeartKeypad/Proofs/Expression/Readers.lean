import HeartKeypad.Proofs.Expression.Tolerance
import HeartKeypad.Proofs.Number.Order

/-!
# Two readers of one result

A bare number is read in two ways: as a display that holds nothing else, and as an expression.
The first turns the sign of what it has read, the second multiplies by `-1`; and only the first
takes a plus in front.

* `Expression.evaluate_of_read?` — where there is no plus, both read the same double.
* `Result.exists_reread` — so they do with every result.
* `Result.reread_of_whole` — a whole result is read as itself, and a zero as the positive one.
-/

namespace HeartKeypad

open Double (Closest exact)

namespace Expression

variable {s : Text} {x : Float}

/-- A bare number is an operand, unless it starts with a plus: an expression has no such sign. -/
theorem operand_of_read? (h : Result.read? s = some x) (plus : ∀ body, s ≠ '+' :: body) :
    Chain.Operand s x := by
  rcases Result.read?_cases h with ⟨minus, body, rfl, bare⟩ | ⟨body, rfl, -⟩
  · obtain ⟨y, literal, -, rfl⟩ := Result.exists_literal_of_readBare? bare
    cases minus with
    | false => exact .plain Text.blanks_nil literal
    | true =>
        rw [if_pos rfl, ← Double.neg_one_mul_eq y]
        exact .negated Text.blanks_nil .hyphen Text.blanks_nil literal
  · exact absurd rfl (plus body)

/-- **A bare number is evaluated to the double that it is read as.** -/
theorem evaluate_of_read? (h : Result.read? s = some x) (plus : ∀ body, s ≠ '+' :: body) :
    evaluate s = .ok x :=
  evaluate_of_operand (operand_of_read? h plus) (Result.isFinite_of_read? h)

end Expression

namespace Result

variable {v p : Float}

/-- No result is written with a plus. -/
theorem format_ne_plus (finite : v.isFinite = true) (body : Text) : format v ≠ '+' :: body := by
  intro plus
  have text := isText_format finite
  rw [plus] at text
  generalize start : '+' :: body = t at text
  cases text with
  | plain whole _ =>
      cases whole with
      | zero => cases start
      | positive digit _ _ =>
          obtain rfl := (List.cons.inj start).1
          cases digit
  | negative _ _ => cases start

/-- **Both readers read a result as one double**, the closest one to what is shown. -/
theorem exists_reread (finite : v.isFinite = true) : ∃ p, read? (format v) = some p ∧
    Expression.evaluate (format v) = .ok p ∧ Closest (number (format v)) p := by
  obtain ⟨p, read, closest⟩ := read?_format finite
  exact ⟨p, read, Expression.evaluate_of_read? read (format_ne_plus finite), closest⟩

/-- Neither zero is shown with a sign. -/
theorem format_of_zero (finite : v.isFinite = true) (zero : exact v = 0) : format v = ['0'] := by
  obtain ⟨d, -, shows, value⟩ := exists_dyadic finite
  have none : d.magnitude = (0 : Nat) := by
    rw [value, Dyadic.value, ← abs_eq_zero, abs_withSign, abs_eq_zero] at zero
    rw [zero, Nat.cast_zero]
  rw [shows, shown_of_magnitude none]
  rfl

/-- **A whole result is read as itself**, but for the sign of a zero. -/
theorem reread_of_whole (finite : v.isFinite = true) (whole : ∃ k : Int, exact v = k)
    (read : read? (format v) = some p) (closest : Closest (number (format v)) p) :
    exact p = exact v ∧ (exact v ≠ 0 → p = v) ∧ (exact v = 0 → p = 0.0) := by
  rw [(number_format finite).2 whole] at closest
  have same := closest.exact_eq finite rfl
  refine ⟨same, fun nonzero => ?_, fun zero => ?_⟩
  · exact (Double.eq_of_exact_eq finite closest.finite nonzero same.symm).symm
  · have positive : read? ['0'] = some 0.0 := by decide
    rw [format_of_zero finite zero, positive] at read
    exact (Option.some.inj read).symm

end Result

end HeartKeypad
