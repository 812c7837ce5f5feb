import HeartKeypad.Proofs.Calculator.Results
import HeartKeypad.Proofs.Expression.BareNumbers

/-!
# The percent key

The percent key divides a bare number by a hundred and leaves any other display alone.  It reads
the display as `Result.read?` does and not as an expression; so the question is whether it shows
what `=` would show of the display with `÷100` typed behind it.

* `Calculator.toFace_pressPercent_of_none` — a display that is no bare number stays.
* `Calculator.toFace_pressPercent_of_some` — a bare number gives way to its hundredth.
* `Calculator.percent_of_run` — which is what evaluating it over a hundred gives.

A number with a plus in front is read by the percent key and refused by `=`
(`Result.readers_agree`).  There the number behind the plus is the one to compare with.
-/

namespace HeartKeypad

open Expression (evaluate)

namespace Calculator

variable {c : Calculator}

/-- A calculator in order is settled. -/
theorem Legible.settle_eq (h : Legible c) : settle c.display c.mode = c.toFace := by
  by_cases same : c.display = zero
  · rw [same, settle_zero, ← h.zero_idle same, ← same]
  · exact settle_of_ne h.ne_nil same c.mode

/-- What is no bare number is left alone. -/
theorem toFace_pressPercent_of_none (h : Legible c) (none : Result.read? c.display = none) :
    c.pressPercent.toFace = c.toFace := by
  rw [pressPercent, none]
  exact h.settle_eq

/-- A bare number gives way to its hundredth; the mode stays, unless a zero is shown. -/
theorem toFace_pressPercent_of_some {x : Float} (read : Result.read? c.display = some x) :
    c.pressPercent.toFace = ⟨Result.format (x / 100.0),
      if Result.format (x / 100.0) = zero then .idle else c.mode⟩ := by
  have nonempty : Result.format (x / 100.0) ≠ [] :=
    format_ne_nil (Double.isFinite_div_hundred (Result.isFinite_of_read? read))
  rw [pressPercent, read]
  show settle (Result.format (x / 100.0)) c.mode = _
  rw [settle, List.isEmpty_eq_false_iff.2 nonempty]
  rfl

/-- **The percent key agrees with evaluation.**  Whatever keys were pressed: it leaves a display
that is no bare number alone, and otherwise shows what the display is worth as an expression in
front of `÷100`.  Behind a plus, which no expression starts with, the number is worth as much.
The mode stays, unless a zero is shown, and nothing is signalled. -/
theorem percent_of_run (egg : Text) (keys : List Key) :
    (Result.read? ((fresh egg).run keys).display = none →
      ((fresh egg).run keys).outcome .percent = ⟨((fresh egg).run keys).toFace, none⟩) ∧
    (∀ v, Result.read? ((fresh egg).run keys).display = some v →
      (∀ body, ((fresh egg).run keys).display ≠ '+' :: body) →
      ∃ x, evaluate (((fresh egg).run keys).display ++ ['÷', '1', '0', '0']) = .ok x ∧
        ((fresh egg).run keys).outcome .percent = ⟨⟨Result.format x,
          if Result.format x = zero then .idle else ((fresh egg).run keys).mode⟩, none⟩) ∧
    ∀ v body, Result.read? ((fresh egg).run keys).display = some v →
      ((fresh egg).run keys).display = '+' :: body →
      ∃ x, evaluate (body ++ ['÷', '1', '0', '0']) = .ok x ∧
        ((fresh egg).run keys).outcome .percent = ⟨⟨Result.format x,
          if Result.format x = zero then .idle else ((fresh egg).run keys).mode⟩, none⟩ := by
  have legible : Legible ((fresh egg).run keys) := (legible_zero egg).run keys
  generalize (fresh egg).run keys = c at legible ⊢
  have shows {v : Float} (read : Result.read? c.display = some v) :
      c.outcome .percent = ⟨⟨Result.format (v / 100.0),
        if Result.format (v / 100.0) = zero then .idle else c.mode⟩, none⟩ :=
    congrArg (Outcome.mk · none) (toFace_pressPercent_of_some read)
  refine ⟨fun none => ?_, fun v read plus => ?_, fun v body read plus => ?_⟩
  · exact congrArg (Outcome.mk · Option.none) (toFace_pressPercent_of_none legible none)
  · exact ⟨v / 100.0, Expression.evaluate_hundredth read plus, shows read⟩
  · have behind : Result.read? ('+' :: body) = some v := plus ▸ read
    obtain ⟨alone, bare⟩ := Result.read?_behind_plus behind
    exact ⟨v / 100.0, Expression.evaluate_hundredth alone bare, shows read⟩

/-- `12.5` over a hundred is `0.125`, of which `0.12` is shown; `5+` is left alone, and `+5` is
taken for the five behind the plus. -/
theorem percent_of_run_on_three_displays :
    (Result.read? ['1', '2', '.', '5'] = some 12.5 ∧
      ∃ x, evaluate ['1', '2', '.', '5', '÷', '1', '0', '0'] = .ok x ∧
        (((fresh []).run [.digit 1, .digit 2, .mark .decimal, .digit 5]).outcome
          .percent).display = Result.format x) ∧
    (Result.read? ['5', '+'] = none ∧
      ((fresh []).run [.digit 5, .mark .add]).outcome .percent = ⟨⟨['5', '+'], .editing⟩, none⟩) ∧
    (Result.read? ['+', '5'] = some 5.0 ∧
      ∃ x, evaluate ['5', '÷', '1', '0', '0'] = .ok x ∧
        (((fresh []).run [.mark .add, .digit 5]).outcome .percent).display = Result.format x) := by
  have number : Result.read? ['1', '2', '.', '5'] = some 12.5 := by decide +kernel
  have plain : ∀ body, ['1', '2', '.', '5'] ≠ '+' :: body := by simp
  have other : Result.read? ['5', '+'] = none := rfl
  have behind : Result.read? ['+', '5'] = some 5.0 := by decide +kernel
  obtain ⟨x, value, shown⟩ := (percent_of_run []
    [.digit 1, .digit 2, .mark .decimal, .digit 5]).2.1 12.5 number plain
  obtain ⟨y, value', shown'⟩ := (percent_of_run [] [.mark .add, .digit 5]).2.2 5.0 ['5'] behind rfl
  refine ⟨⟨number, x, value, ?_⟩, ⟨other, ?_⟩, behind, y, value', ?_⟩
  · rw [shown]
  · exact (percent_of_run [] [.digit 5, .mark .add]).1 other
  · rw [shown']

end Calculator

end HeartKeypad
