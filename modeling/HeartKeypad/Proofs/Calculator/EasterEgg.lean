import HeartKeypad.Proofs.Calculator.Results

/-!
# When the easter egg goes off

The easter egg is meant for a result: it goes off when `=` shows the chosen text.  What `=`
shows is a result or the error mark, and the chosen text is compared with either.  No result
reads as the error mark (`Calculator.format_ne_errorMark`), so the two never get in each other's
way: an egg that is not the error mark goes off for results only, and one that is goes off for
failed evaluations only.

* `Calculator.Yields` — an expression has a result with a given text.
* `Calculator.Fails` — it has none.
* `Calculator.easterEgg_iff` — when the egg goes off, and which keys signal a digit.
* `Calculator.egg_without_result` — the egg may go off although there is no result.
-/

namespace HeartKeypad

open Expression (evaluate)

namespace Calculator

/-- **The expression has a result** that is written as this text. -/
def Yields (display text : Text) : Prop :=
  ∃ v, evaluate display = .ok v ∧ Result.format v = text

/-- The expression cannot be evaluated. -/
def Fails (display : Text) : Prop := ∃ fault, evaluate display = .error fault

/-! ### What `=` shows -/

/-- No result is written as the error mark. -/
theorem Yields.ne_errorMark {display text : Text} (h : Yields display text) :
    text ≠ errorMark := by
  obtain ⟨v, value, rfl⟩ := h
  exact format_ne_errorMark (Expression.isFinite_of_evaluate value)

/-- **What `=` shows** tells a result from a failure. -/
theorem answer_eq_iff (display text : Text) :
    answer display = text ↔
      text ≠ errorMark ∧ Yields display text ∨ text = errorMark ∧ Fails display := by
  cases value : evaluate display with
  | ok v =>
      have sound : ¬ Fails display := by
        rintro ⟨fault, failed⟩
        rw [value] at failed
        cases failed
      rw [answer_of_ok value]
      constructor
      · intro same
        have yields : Yields display text := ⟨v, value, same⟩
        exact Or.inl ⟨yields.ne_errorMark, yields⟩
      · rintro (⟨-, w, result, same⟩ | ⟨-, failed⟩)
        · rw [value] at result
          cases result
          exact same
        · exact absurd failed sound
  | error fault =>
      have none : ¬ Yields display text := by
        rintro ⟨v, result, -⟩
        rw [value] at result
        cases result
      rw [answer_of_error value]
      constructor
      · rintro rfl
        exact Or.inr ⟨rfl, fault, value⟩
      · rintro (⟨-, yields⟩ | ⟨rfl, -⟩)
        · exact absurd yields none
        · rfl

/-! ### The chosen text -/

/-- No key chooses another text. -/
theorem egg_press (k : Key) (c : Calculator) : (c.press k).egg = c.egg := by
  cases k with
  | digit d => rfl
  | mark m => rfl
  | equal => rfl
  | clear =>
      simp only [press, pressClear]
      cases c.mode <;> rfl
  | negate =>
      simp only [press, pressNegate]
      split <;> rfl
  | percent =>
      simp only [press, pressPercent]
      split <;> rfl

theorem egg_run (keys : List Key) (c : Calculator) : (c.run keys).egg = c.egg := by
  induction keys generalizing c with
  | nil => rfl
  | cons k keys ih => exact (ih (c.press k)).trans (egg_press k c)

/-! ### Signals -/

/-- Only `=` sets off the egg. -/
theorem signal_eq_easterEgg_iff {k : Key} {c : Calculator} :
    c.signal k = some .easterEgg ↔ k = .equal ∧ answer c.display = c.egg := by
  cases k <;> simp [signal]

/-- Only a digit is signalled as accepted, and as the digit that it is. -/
theorem signal_eq_digitAccepted_iff {k : Key} {c : Calculator} {d : Digit} :
    c.signal k = some (.digitAccepted d) ↔ k = .digit d := by
  cases k <;> simp [signal]

/-- **When the easter egg goes off.**  Whatever text was chosen for it and whatever keys were
pressed, it goes off at `=` and at no other key: where the chosen text is not the error mark, iff
the display has a result that is written so; where it is the error mark, iff the display cannot
be evaluated.  A digit is signalled by the key of that digit and by no other. -/
theorem easterEgg_iff (egg : Text) (keys : List Key) (k : Key) :
    ((((fresh egg).run keys).outcome k).signal = some .easterEgg ↔
      k = .equal ∧
        (egg ≠ errorMark ∧ Yields ((fresh egg).run keys).display egg ∨
          egg = errorMark ∧ Fails ((fresh egg).run keys).display)) ∧
    ∀ d, (((fresh egg).run keys).outcome k).signal = some (.digitAccepted d) ↔
      k = .digit d := by
  have chosen : ((fresh egg).run keys).egg = egg := egg_run keys (fresh egg)
  refine ⟨?_, fun d => signal_eq_digitAccepted_iff⟩
  rw [outcome, signal_eq_easterEgg_iff, chosen, answer_eq_iff]

/-- **The egg may go off without a result**: `Error` is chosen, and a lone plus evaluated. -/
theorem egg_without_result :
    ¬ ∀ egg keys, (((fresh egg).run keys).outcome .equal).signal = some .easterEgg ↔
      Yields ((fresh egg).run keys).display egg := by
  intro always
  have signalled : (((fresh errorMark).run [.mark .add]).outcome .equal).signal =
      some .easterEgg := by
    decide
  exact ((always errorMark [.mark .add]).1 signalled).ne_errorMark rfl

end Calculator

end HeartKeypad
