import HeartKeypad.Proofs.Calculator.Typing
import Mathlib.Data.Nat.Digits.Defs

/-!
# What typing shows

Digits and marks that are typed on a fresh calculator are shown without their leading zeros, and
as being edited unless nothing but a zero is left (`Calculator.typed_display`).  Digits alone are
shown as the number that they denote is written.

### Why a digit is typed as a digit is written

A number with one digit more is written as the number without it, and that digit behind
(`Written.digits_concat`).  The one exception is the number zero, which leaves no digit in front;
and zero is just what a typed digit takes the place of, by `Calculator.markBase`.  So the two
texts grow alike, and `Calculator.echo_digits` follows by induction from the last digit.
-/

namespace HeartKeypad

open Text (behindZeros)

/-- **The number that digits denote**, the first of them being the highest. -/
def Digit.number (ds : List Digit) : Nat := Nat.ofDigits 10 (ds.map Fin.val).reverse

theorem Digit.number_concat (ds : List Digit) (d : Digit) :
    number (ds ++ [d]) = 10 * number ds + d.val := by
  simp [number, Nat.ofDigits_cons, Nat.add_comm]

theorem Digit.digitChar_eq_glyph (d : Digit) : d.val.digitChar = d.glyph := by
  revert d
  decide

/-! ### Numbers in writing -/

namespace Written

open Calculator (zero markBase)

/-- Zero is the only number that is written so. -/
theorem digits_eq_zero_iff {n : Nat} : digits n = zero ↔ n = 0 := by
  constructor
  · intro same
    by_contra nonzero
    obtain ⟨c, ds, split, -, other, -⟩ := digits_positive (Nat.pos_of_ne_zero nonzero)
    rw [split] at same
    exact other (List.cons.inj same).1
  · rintro rfl
    rfl

/-- **A number with one digit more** is written with that digit behind, but for a lone zero. -/
theorem digits_concat (n : Nat) (d : Digit) :
    digits (10 * n + d.val) = markBase (digits n) ++ [d.glyph] := by
  have small : d.val < 10 := d.isLt
  rw [digits, Nat.toDigits_eq_if (by omega), ← d.digitChar_eq_glyph, markBase]
  by_cases none : n = 0
  · rw [if_pos (by omega), if_pos (digits_eq_zero_iff.2 none), none]
    simp
  · have tenth : (10 * n + d.val) / 10 = n := by omega
    have last : (10 * n + d.val) % 10 = d.val := by omega
    rw [if_neg (by omega), if_neg (mt digits_eq_zero_iff.1 none), tenth, last, digits]

end Written

namespace Calculator

/-! ### Typing -/

/-- Digits type their own glyphs. -/
theorem glyphs_digits (ds : List Digit) : glyphs (ds.map .digit) = ds.map Digit.glyph := by
  induction ds with
  | nil => rfl
  | cons d ds ih =>
      rw [List.map_cons, List.map_cons, ← ih]
      rfl

/-- **Typed digits are shown as their number is written.** -/
theorem echo_digits (ds : List Digit) :
    echo (glyphs (ds.map .digit)) = Written.digits (Digit.number ds) := by
  rw [glyphs_digits]
  induction ds using List.reverseRecOn with
  | nil => rfl
  | append_singleton ds d ih =>
      rw [List.map_append, List.map_singleton, echo_concat, ← markBase_echo, ih,
        Digit.number_concat, Written.digits_concat]

/-- A key that types a glyph starts editing, unless a zero is left. -/
theorem mode_press_of_types {k : Key} (types : Types k) (c : Calculator) :
    (c.press k).mode = if (c.press k).display = zero then .idle else .editing := by
  obtain ⟨g, hg⟩ := Option.isSome_iff_exists.1 types
  rcases digit_or_mark_of_glyph? hg with ⟨d, rfl, -⟩ | ⟨m, rfl, -⟩
  · rfl
  · rfl

theorem mode_run_fresh (egg : Text) {keys : List Key} (types : ∀ k ∈ keys, Types k) :
    ((fresh egg).run keys).mode =
      if ((fresh egg).run keys).display = zero then .idle else .editing := by
  rcases List.eq_nil_or_concat keys with rfl | ⟨front, k, rfl⟩
  · rfl
  · rw [List.concat_eq_append, run_concat]
    exact mode_press_of_types (types k (by simp)) _

/-- **What typing shows.**  Whatever digits and marks are typed on a fresh calculator, their
glyphs are shown without the zeros in front, or a zero if nothing else is left; the calculator is
idle where a zero is shown, and editing otherwise.  Digits alone are shown as the number that they
denote is written. -/
theorem typed_display (egg : Text) {keys : List Key} (types : ∀ k ∈ keys, Types k) :
    ((fresh egg).run keys).display =
        (if behindZeros (glyphs keys) = [] then zero else behindZeros (glyphs keys)) ∧
      ((fresh egg).run keys).mode =
        (if ((fresh egg).run keys).display = zero then .idle else .editing) ∧
      ∀ ds : List Digit, keys = ds.map .digit →
        ((fresh egg).run keys).display = Written.digits (Digit.number ds) := by
  refine ⟨display_run_fresh egg types, mode_run_fresh egg types, ?_⟩
  rintro ds rfl
  rw [display_run_fresh egg types, echo_digits]

/-- `0070` is shown as seventy is written, and as being edited. -/
theorem typed_display_of_seventy :
    (∀ k ∈ [Key.digit 0, .digit 0, .digit 7, .digit 0], Types k) ∧
      ((fresh []).run [.digit 0, .digit 0, .digit 7, .digit 0]).toFace = ⟨['7', '0'], .editing⟩ ∧
      Written.digits (Digit.number [0, 0, 7, 0]) = ['7', '0'] := by
  have types : ∀ k ∈ [Key.digit 0, .digit 0, .digit 7, .digit 0], Types k := by
    simp [Types, Key.glyph?]
  obtain ⟨shown, mode, number⟩ := typed_display [] types
  have left : behindZeros (glyphs [.digit 0, .digit 0, .digit 7, .digit 0]) = ['7', '0'] := by
    decide
  rw [left, if_neg (by decide)] at shown
  rw [shown, if_neg (by decide)] at mode
  refine ⟨types, ?_, (number [0, 0, 7, 0] rfl).symm.trans shown⟩
  rw [← shown, ← mode]

end Calculator

end HeartKeypad
