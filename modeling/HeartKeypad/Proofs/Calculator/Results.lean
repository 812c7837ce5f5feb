import HeartKeypad.Proofs.Calculator.Typing
import HeartKeypad.Proofs.Expression.Readers

/-!
# Keys on a result

The keys that read a display find the number on it that was put there.  `=` reads it as an
expression and the percent key as a bare number, and on a result both find one double
(`Result.exists_reread`); so each of them leaves another result.

* `Calculator.ShowsResult` — the display is the text of a finite double.
* `Calculator.ShowsResult.run` — it stays so under these two keys.
* `Calculator.result_readable` — what is read from a result, and that no error comes of it.
-/

namespace HeartKeypad

open Double (exact)
open Expression (evaluate)

namespace Calculator

/-- **A result is shown**: the text of some finite double. -/
def ShowsResult (c : Calculator) : Prop :=
  ∃ v : Float, v.isFinite = true ∧ c.display = Result.format v

/-- The keys that read the number on the display. -/
def Reads (k : Key) : Prop := k = .equal ∨ k = .percent

theorem format_ne_nil {v : Float} (finite : v.isFinite = true) : Result.format v ≠ [] :=
  isText_ne_nil (Result.isText_format finite)

/-- A result is not the error mark. -/
theorem format_ne_errorMark {v : Float} (finite : v.isFinite = true) :
    Result.format v ≠ errorMark :=
  (typed_of_isText (Result.isText_format finite)).ne_errorMark

namespace ShowsResult

variable {c : Calculator}

/-- `=` on a result shows one again. -/
theorem pressEqual (h : ShowsResult c) : ShowsResult c.pressEqual := by
  obtain ⟨v, finite, shown⟩ := h
  obtain ⟨p, -, value, closest⟩ := Result.exists_reread finite
  refine ⟨p, closest.finite, ?_⟩
  rw [toFace_pressEqual, shown, answer_of_ok value]

/-- So does the percent key. -/
theorem pressPercent (h : ShowsResult c) : ShowsResult c.pressPercent := by
  obtain ⟨v, finite, shown⟩ := h
  obtain ⟨p, read, -, closest⟩ := Result.exists_reread finite
  have hundredth := Double.isFinite_div_hundred closest.finite
  refine ⟨p / 100.0, hundredth, ?_⟩
  rw [Calculator.pressPercent, shown, read]
  exact display_showing (format_ne_nil hundredth) c.mode

theorem press (h : ShowsResult c) {k : Key} (reads : Reads k) : ShowsResult (c.press k) := by
  rcases reads with rfl | rfl
  · exact h.pressEqual
  · exact h.pressPercent

/-- Any number of these keys leave a result. -/
theorem run (h : ShowsResult c) {keys : List Key} (reads : ∀ k ∈ keys, Reads k) :
    ShowsResult (c.run keys) := by
  induction keys generalizing c with
  | nil => exact h
  | cons k keys ih =>
      obtain ⟨first, others⟩ := List.forall_mem_cons.1 reads
      exact ih (h.press first) others

theorem ne_errorMark (h : ShowsResult c) : c.display ≠ errorMark := by
  obtain ⟨v, finite, shown⟩ := h
  rw [shown]
  exact format_ne_errorMark finite

end ShowsResult

/-- **A result is read back**, as a bare number and as an expression, and both times as the same
finite double.  If the result is whole, this is the double that it was made from, and the
positive zero for either zero.  So `=` and the percent key, pressed on a result any number of
times and in any order, leave a result and no error. -/
theorem result_readable {v : Float} (finite : v.isFinite = true) :
    (∃ p : Float, p.isFinite = true ∧ Result.read? (Result.format v) = some p ∧
      evaluate (Result.format v) = .ok p ∧
      ((∃ k : Int, exact v = k) →
        exact p = exact v ∧ (exact v ≠ 0 → p = v) ∧ (exact v = 0 → p = 0.0))) ∧
    ∀ (c : Calculator) (keys : List Key), c.display = Result.format v →
      (∀ k ∈ keys, Reads k) → ShowsResult (c.run keys) ∧ (c.run keys).display ≠ errorMark := by
  constructor
  · obtain ⟨p, read, value, closest⟩ := Result.exists_reread finite
    exact ⟨p, closest.finite, read, value, fun whole =>
      Result.reread_of_whole finite whole read closest⟩
  · intro c keys shown reads
    have result : ShowsResult (c.run keys) := ShowsResult.run ⟨v, finite, shown⟩ reads
    exact ⟨result, result.ne_errorMark⟩

/-- Minus a third is read back as `-0.33`, and `=`, `%` and `=` on it leave a result. -/
theorem result_readable_at_minus_third :
    Result.format (-1.0 / 3.0) = ['-', '0', '.', '3', '3'] ∧
      (∃ p : Float, p.isFinite = true ∧ Result.read? ['-', '0', '.', '3', '3'] = some p ∧
        evaluate ['-', '0', '.', '3', '3'] = .ok p) ∧
      ShowsResult ((⟨⟨['-', '0', '.', '3', '3'], .idle⟩, defaultEgg⟩ : Calculator).run
        [.equal, .percent, .equal]) := by
  have text : Result.format (-1.0 / 3.0) = ['-', '0', '.', '3', '3'] := by decide
  obtain ⟨⟨p, finite, read, value, -⟩, keys⟩ :=
    result_readable (v := -1.0 / 3.0) (by decide)
  rw [text] at read value
  exact ⟨text, ⟨p, finite, read, value⟩, (keys _ _ text.symm (by simp [Reads])).1⟩

end Calculator

end HeartKeypad
