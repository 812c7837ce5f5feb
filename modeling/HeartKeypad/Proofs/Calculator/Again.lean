import HeartKeypad.Proofs.Calculator.Typing
import HeartKeypad.Proofs.Expression.Reread

/-!
# Pressing `=` again

What `=` shows is an expression too, and `=` can be pressed on it again.  The error mark stays,
and so does a result, with one exception: a value that is not whole may be shown with two zeros
behind the point, as `3.00` for `2.999`, and what is read from such a text is whole.  The second
`=` then leaves the places out, and nothing changes after that.

* `Calculator.pressEqual_again` — what the second `=` shows, when it changes nothing, and that
  the third one never does.
* `Calculator.pressEqual_not_fixed` — the second one may show another text.
-/

namespace HeartKeypad

namespace Calculator

open Result (settled)

/-- An answer is the error mark or a result. -/
theorem answer_eq_or_format (display : Text) : answer display = errorMark ∨
    ∃ x : Float, x.isFinite = true ∧ answer display = Result.format x := by
  unfold answer
  split
  · rename_i x value
    exact Or.inr ⟨x, Expression.isFinite_of_evaluate value, rfl⟩
  · exact Or.inl rfl

/-- **What the second `=` makes of an answer.** -/
theorem answer_answer (display : Text) : answer (answer display) = settled (answer display) := by
  rcases answer_eq_or_format display with error | ⟨x, finite, result⟩
  · rw [error]
    decide
  · obtain ⟨w, again, shows⟩ := Result.evaluate_format finite
    rw [result, answer, again]
    exact shows

/-- An answer is settled once. -/
theorem settled_settled_answer (display : Text) :
    settled (settled (answer display)) = settled (answer display) := by
  rcases answer_eq_or_format display with error | ⟨x, finite, result⟩
  · rw [error]
    decide
  · obtain ⟨d, -, shows, -⟩ := Result.exists_dyadic finite
    rw [result, shows, Result.settled_settled_shown]

/-- Only the places are left out, and only zeros. -/
theorem settled_eq_self_iff {s : Text} : settled s = s ↔ ¬ ['.', '0', '0'] <:+ s := by
  refine ⟨?_, Result.settled_of_not_suffix⟩
  rintro same ⟨whole, rfl⟩
  have short := congrArg List.length same
  rw [Result.settled_append, List.length_append] at short
  split at short <;> simp at short

/-- What `=` makes of a calculator that it has been pressed on. -/
theorem pressEqual_eq_iff (c : Calculator) :
    c.pressEqual = c ↔ answer c.display = c.display ∧ c.mode = .idle := by
  have face := toFace_pressEqual c
  constructor
  · intro same
    rw [same] at face
    exact ⟨(congrArg Face.display face).symm, congrArg Face.mode face⟩
  · rintro ⟨shown, idle⟩
    have same : c.pressEqual.toFace = c.toFace := by rw [face, shown, ← idle]
    exact congrArg (fun f => (⟨f, c.egg⟩ : Calculator)) same

/-- **Pressing `=` again.**  The second `=` shows the answer of the first without its places, if
both are zeros; it changes nothing iff the answer does not end in two zeros behind a point; and
the third `=` changes nothing. -/
theorem pressEqual_again (c : Calculator) :
    c.pressEqual.pressEqual.toFace = ⟨settled c.pressEqual.display, .idle⟩ ∧
      (c.pressEqual.pressEqual = c.pressEqual ↔ ¬ ['.', '0', '0'] <:+ c.pressEqual.display) ∧
      c.pressEqual.pressEqual.pressEqual = c.pressEqual.pressEqual := by
  have first := toFace_pressEqual c
  have second : c.pressEqual.pressEqual.toFace = ⟨settled (answer c.display), .idle⟩ := by
    rw [toFace_pressEqual, first, answer_answer]
  refine ⟨?_, ?_, ?_⟩
  · rw [second, first]
  · rw [pressEqual_eq_iff, first, answer_answer, settled_eq_self_iff, and_iff_left rfl]
  · rw [pressEqual_eq_iff, second]
    refine ⟨?_, rfl⟩
    show answer (settled (answer c.display)) = settled (answer c.display)
    rw [← answer_answer, answer_answer (answer c.display), answer_answer, settled_settled_answer]

/-- **The second `=` may show another text**: `2.999` is shown as `3.00`, and that as `3`. -/
theorem pressEqual_not_fixed :
    ¬ ∀ egg keys, ((fresh egg).run keys).pressEqual.pressEqual.toFace =
      ((fresh egg).run keys).pressEqual.toFace := by
  intro always
  have shown := always [] [.digit 2, .mark .decimal, .digit 9, .digit 9, .digit 9]
  revert shown
  decide

end Calculator

end HeartKeypad
