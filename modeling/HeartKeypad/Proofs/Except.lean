import Mathlib.Logic.Basic

/-!
# Computations that succeed

A computation in steps succeeds only if each of its steps does.  The lemmas take such a
computation apart, one step at a time, and tell what a change of its error leaves alone.
-/

namespace HeartKeypad

variable {ε δ α β : Type}

/-- Two steps succeed iff the first does and the second does behind it. -/
theorem bind_eq_ok_iff {first : Except ε α} {second : α → Except ε β} {b : β} :
    (first >>= second) = .ok b ↔ ∃ a, first = .ok a ∧ second a = .ok b := by
  constructor
  · intro h
    cases first with
    | ok a => exact ⟨a, rfl, h⟩
    | error e => cases h
  · rintro ⟨a, rfl, h⟩
    exact h

/-- Another error changes no success. -/
theorem mapError_eq_ok_iff {r : Except ε α} {e : ε → δ} {a : α} :
    r.mapError e = .ok a ↔ r = .ok a := by
  constructor
  · intro h
    cases r with
    | ok b =>
        cases h
        rfl
    | error f => cases h
  · rintro rfl
    rfl

/-- What is done with a success does not depend on the error there might be. -/
theorem mapError_map (r : Except ε α) (g : α → β) (e : ε → δ) :
    (r.map g).mapError e = (r.mapError e).map g := by
  cases r <;> rfl

end HeartKeypad
