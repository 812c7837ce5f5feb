import HeartKeypad.Proofs.Calculator.Display

/-!
# Pressing the sign key twice

The sign key takes a leading minus off the display and puts one on a display that has none.
Pressed twice it gives back what was shown, with two exceptions.  Minuses can be typed, and of
two in front of a display both are taken off; and a minus that stands alone is taken off and
leaves a zero, which is then signed.

* `Calculator.toggled` — what the sign key makes of a display.
* `Calculator.pressNegate_twice` — what is shown after two presses, and which displays are
  given back.
* `Calculator.pressNegate_not_involutive` — there are others.

Nothing here asks how a display came about, but that there is one: no calculator that was driven
by keys has an empty display (`Calculator.Legible.ne_nil`).
-/

namespace HeartKeypad

namespace Calculator

/-- A display with its leading minus taken off, or with one put on. -/
def toggled : Text → Text
  | '-' :: rest => rest
  | display => '-' :: display

/-- What two presses of the sign key make of a display. -/
def toggledTwice : Text → Text
  | ['-'] => ['-', '0']
  | '-' :: '-' :: rest => if rest = [] then zero else rest
  | display => display

theorem toggled_minus (rest : Text) : toggled ('-' :: rest) = rest := rfl

theorem toggled_of_bare {display : Text} (bare : ∀ rest, display ≠ '-' :: rest) :
    toggled display = '-' :: display := by
  unfold toggled
  split
  · exact absurd rfl (bare _)
  · rfl

theorem toggled_of_ne {c : Char} (h : c ≠ '-') (rest : Text) :
    toggled (c :: rest) = '-' :: c :: rest :=
  toggled_of_bare fun _ same => h (List.cons.inj same).1

theorem toFace_pressNegate (c : Calculator) :
    c.pressNegate.toFace = settle (toggled c.display) .editing := by
  unfold pressNegate
  split
  · rename_i rest minus
    rw [minus, toggled_minus]
    rfl
  · rename_i bare
    rw [toggled_of_bare bare]
    rfl

/-- Settling shows a zero where there is nothing to show, and leaves any other text alone. -/
theorem display_settle (display : Text) (mode : Mode) :
    (settle display mode).display = if display = [] then zero else display := by
  simp [settle]

/-- Two presses of the sign key, without the settling in between. -/
theorem settle_toggled_toggled {display : Text} (shown : display ≠ []) (mode : Mode) :
    settle (toggled (settle (toggled display) mode).display) .editing =
      settle (toggledTwice display) .editing := by
  obtain ⟨c, rest, rfl⟩ := List.exists_cons_of_ne_nil shown
  rw [display_settle]
  by_cases minus : c = '-'
  · subst minus
    rw [toggled_minus]
    match rest with
    | [] => rfl
    | d :: rest =>
        rw [if_neg (List.cons_ne_nil d rest)]
        by_cases second : d = '-'
        · -- a second minus goes the way of the first
          subst second
          by_cases last : rest = []
          · subst last
            rfl
          · simp [toggled_minus, toggledTwice, last]
        · rw [toggled_of_ne second]
          simp [toggledTwice, second]
  · rw [toggled_of_ne minus, if_neg (List.cons_ne_nil _ _), toggled_minus]
    simp [toggledTwice, minus]

theorem toggledTwice_ne_nil {display : Text} (shown : display ≠ []) :
    toggledTwice display ≠ [] := by
  unfold toggledTwice
  split
  · simp
  · split
    · simp [zero]
    · assumption
  · exact shown

/-- What is given back by two presses: all but a minus alone and what starts with two. -/
theorem toggledTwice_eq_self_iff {display : Text} (shown : display ≠ []) :
    toggledTwice display = display ↔ display ≠ ['-'] ∧ ¬ ['-', '-'] <+: display := by
  unfold toggledTwice
  split
  · simp
  · rename_i rest
    -- both minuses are gone, so the text is shorter than it was
    have shorter : (if rest = [] then zero else rest) ≠ '-' :: '-' :: rest := by
      intro same
      have lengths := congrArg List.length same
      split at lengths
      · simp [zero] at lengths
      · simp at lengths
        omega
    simp [shorter]
  · rename_i alone two
    refine iff_of_true rfl ⟨alone, ?_⟩
    rintro ⟨rest, rfl⟩
    exact two rest rfl

/-- **Pressing the sign key twice** leaves a calculator that was driven by keys with the display
it had, being edited unless it is a lone zero.  The exceptions are a minus alone, which becomes
`-0`, and a display that starts with two minuses, which loses both. -/
theorem pressNegate_twice (egg : Text) (keys : List Key) :
    ((fresh egg).run keys).pressNegate.pressNegate.toFace =
        settle (toggledTwice ((fresh egg).run keys).display) .editing ∧
      (((fresh egg).run keys).pressNegate.pressNegate.display = ((fresh egg).run keys).display ↔
        ((fresh egg).run keys).display ≠ ['-'] ∧
          ¬ ['-', '-'] <+: ((fresh egg).run keys).display) := by
  have shown := ((legible_zero egg).run keys).ne_nil
  change ((fresh egg).run keys).display ≠ [] at shown
  generalize (fresh egg).run keys = c at shown ⊢
  have face : c.pressNegate.pressNegate.toFace =
      settle (toggledTwice c.display) .editing := by
    rw [toFace_pressNegate, toFace_pressNegate, settle_toggled_toggled shown]
  refine ⟨face, ?_⟩
  rw [face, display_settle, if_neg (toggledTwice_ne_nil shown), toggledTwice_eq_self_iff shown]

/-- **The sign key is not an involution**: of `--5` two presses leave `5`. -/
theorem pressNegate_not_involutive :
    ¬ ∀ egg keys, ((fresh egg).run keys).display ≠ zero →
      ((fresh egg).run keys).pressNegate.pressNegate.display =
        ((fresh egg).run keys).display := by
  intro always
  have shown := always [] [.mark .subtract, .mark .subtract, .digit 5]
  revert shown
  decide

end Calculator

end HeartKeypad
