import HeartKeypad.Proofs.Calculator.Display

/-!
# The clear key

Idle, the clear key is labelled `AC` and takes everything off the display.  While something is
being edited it is labelled `⌫` and takes off the last character, and what is left is settled: a
display with nothing or a lone zero on it is idle.  So pressing it long enough leads to a zero,
from everything that keys lead to.

* `Face.clears` — the presses until there is nothing left to clear, counted on the display.
* `Calculator.Legible.clears_press`, `Calculator.Legible.clears_run` — each press takes one off
  that count.
* `Calculator.clear_reaches_floor` — the count is at most the length of the display, and a zero
  is shown from then on, and not before.

### Where the count is less than the length

An idle display takes one press, however long it is, and none if it is a lone zero.  A display
that is being edited takes a press for each character, but for a zero in front: when all others
are gone that zero is left alone, and the calculator is idle before it is taken off.
-/

namespace HeartKeypad

/-- **How many presses of the clear key** it takes to clear what is shown. -/
def Face.clears (f : Face) : Nat :=
  match f.mode with
  | .idle => if f.display = Calculator.zero then 0 else 1
  | .editing => if f.display.head? = some '0' then f.display.length - 1 else f.display.length

namespace Calculator

/-- What a cleared calculator shows. -/
def floor : Face := ⟨zero, .idle⟩

variable {c : Calculator}

/-! ### One press -/

theorem clearLabel_eq_all_iff : c.clearLabel = ['A', 'C'] ↔ c.mode = .idle := by
  rw [clearLabel]
  cases c.mode <;> decide

theorem clearLabel_eq_last_iff : c.clearLabel = ['⌫'] ↔ c.mode = .editing := by
  rw [clearLabel]
  cases c.mode <;> decide

theorem toFace_pressClear_of_idle (idle : c.mode = .idle) : c.pressClear.toFace = floor := by
  rw [pressClear, idle]
  rfl

theorem toFace_pressClear_of_editing (editing : c.mode = .editing) :
    c.pressClear.toFace = settle c.display.dropLast .editing := by
  rw [pressClear, editing]
  rfl

/-- What is settled while editing: the text, unless it is empty or a lone zero. -/
theorem settle_editing (display : Text) : settle display .editing =
    if display = [] ∨ display = zero then floor else ⟨display, .editing⟩ := by
  split
  · rename_i done
    rcases done with rfl | rfl
    · exact settle_nil .editing
    · exact settle_zero .editing
  · rename_i more
    rw [not_or] at more
    exact settle_of_ne more.1 more.2 .editing

/-- A display that is being edited: a zero in front is not taken off. -/
theorem clears_editing (d : Char) (rest : Text) : (⟨d :: rest, .editing⟩ : Face).clears =
    if d = '0' then rest.length else rest.length + 1 := by
  simp [Face.clears]

/-- Taking off the last character takes one off the count. -/
theorem clears_settle_dropLast {display : Text} (shown : display ≠ []) (nonzero : display ≠ zero) :
    (settle display.dropLast .editing).clears = (⟨display, .editing⟩ : Face).clears - 1 := by
  obtain ⟨d, rest, rfl⟩ := List.exists_cons_of_ne_nil shown
  rw [clears_editing]
  rcases eq_or_ne rest [] with rfl | more
  · -- the only character, which is no zero
    have other : d ≠ '0' := by
      rintro rfl
      exact nonzero rfl
    rw [if_neg other]
    rfl
  · have length : 0 < rest.length := List.length_pos_iff.2 more
    rw [List.dropLast_cons_of_ne_nil more, settle_editing]
    by_cases last : d :: rest.dropLast = zero
    · -- a zero is left, which stays
      obtain ⟨rfl, none⟩ := List.cons.inj last
      have one : rest.length - 1 = 0 := by rw [← List.length_dropLast, none, List.length_nil]
      rw [if_pos (Or.inr last), if_pos rfl, one]
      rfl
    · have going : ¬ (d :: rest.dropLast = [] ∨ d :: rest.dropLast = zero) := by simp [last]
      rw [if_neg going, clears_editing, List.length_dropLast]
      split
      · rfl
      · omega

/-! ### Any number of presses -/

namespace Legible

/-- What is being edited is not a lone zero. -/
theorem ne_zero_of_editing (h : Legible c) (editing : c.mode = .editing) : c.display ≠ zero := by
  intro same
  have idle := h.zero_idle same
  rw [editing] at idle
  cases idle

/-- **Each press takes one off the count.** -/
theorem clears_press (h : Legible c) : (c.press .clear).clears = c.clears - 1 := by
  change c.pressClear.clears = c.clears - 1
  cases mode : c.mode with
  | idle =>
      have one : c.clears ≤ 1 := by
        simp only [Face.clears, mode]
        split <;> omega
      rw [toFace_pressClear_of_idle mode]
      exact (Nat.sub_eq_zero_of_le one).symm
  | editing =>
      have face : c.toFace = ⟨c.display, .editing⟩ := by rw [← mode]
      rw [toFace_pressClear_of_editing mode, face]
      exact clears_settle_dropLast h.ne_nil (h.ne_zero_of_editing mode)

/-- Any number of presses take as many off. -/
theorem clears_run (h : Legible c) (k : Nat) :
    (c.run (List.replicate k .clear)).clears = c.clears - k := by
  induction k generalizing c with
  | zero => rfl
  | succ k ih =>
      have first : c.run (List.replicate (k + 1) .clear) =
          (c.press .clear).run (List.replicate k .clear) := rfl
      rw [first, ih (h.press .clear), h.clears_press]
      omega

/-- Nothing is left to clear where a zero is shown, and only there. -/
theorem clears_eq_zero_iff (h : Legible c) : c.clears = 0 ↔ c.toFace = floor := by
  constructor
  · intro none
    cases mode : c.mode with
    | idle =>
        simp only [Face.clears, mode] at none
        split at none
        · rename_i same
          rw [floor, ← mode, ← same]
        · cases none
    | editing =>
        obtain ⟨d, rest, shown⟩ := List.exists_cons_of_ne_nil h.ne_nil
        have face : c.toFace = ⟨d :: rest, .editing⟩ := by rw [← mode, ← shown]
        rw [face, clears_editing] at none
        split at none
        · rename_i front
          have same : c.display = zero := by
            rw [shown, front, List.length_eq_zero_iff.1 none]
            rfl
          exact absurd same (h.ne_zero_of_editing mode)
        · cases none
  · intro same
    rw [same]
    rfl

/-- The display has at least as many characters as there are presses to make. -/
theorem clears_le_length (h : Legible c) : c.clears ≤ c.display.length := by
  have nonempty : 0 < c.display.length := List.length_pos_iff.2 h.ne_nil
  unfold Face.clears
  split
  · split <;> omega
  · split <;> omega

/-- **A zero is shown as soon as the count is used up**, and from then on. -/
theorem toFace_run_eq_floor_iff (h : Legible c) (k : Nat) :
    (c.run (List.replicate k .clear)).toFace = floor ↔ c.clears ≤ k := by
  rw [← (h.run _).clears_eq_zero_iff, h.clears_run, Nat.sub_eq_zero_iff_le]

end Legible

/-- **The clear key does what its label says, and reaches a floor.**  Whatever keys were pressed:
where the label is `AC`, one press shows a zero; where it is `⌫`, one press takes off the last
character and goes on editing, unless nothing or a lone zero is left.  There is a number of
presses, at most the length of the display, from which on the calculator shows an idle zero, and
before which it does not. -/
theorem clear_reaches_floor (egg : Text) (keys : List Key) :
    (((fresh egg).run keys).clearLabel = ['A', 'C'] →
      (((fresh egg).run keys).press .clear).toFace = ⟨zero, .idle⟩) ∧
    (((fresh egg).run keys).clearLabel = ['⌫'] →
      (((fresh egg).run keys).press .clear).toFace =
        if ((fresh egg).run keys).display.dropLast = [] ∨
            ((fresh egg).run keys).display.dropLast = zero then ⟨zero, .idle⟩
        else ⟨((fresh egg).run keys).display.dropLast, .editing⟩) ∧
    ∃ n ≤ ((fresh egg).run keys).display.length, ∀ k,
      (((fresh egg).run keys).run (List.replicate k .clear)).toFace = ⟨zero, .idle⟩ ↔ n ≤ k := by
  have legible : Legible ((fresh egg).run keys) := (legible_zero egg).run keys
  generalize (fresh egg).run keys = c at legible ⊢
  refine ⟨fun label => ?_, fun label => ?_, c.clears, legible.clears_le_length,
    legible.toFace_run_eq_floor_iff⟩
  · exact toFace_pressClear_of_idle (clearLabel_eq_all_iff.1 label)
  · rw [← floor, ← settle_editing]
    exact toFace_pressClear_of_editing (clearLabel_eq_last_iff.1 label)

/-- A half is idle, and gone with one press.  With a five typed behind it, one press takes the five
off, and five presses take everything. -/
theorem clear_reaches_floor_from_half :
    ((fresh []).run [.digit 1, .mark .divide, .digit 2, .equal]).clearLabel = ['A', 'C'] ∧
    (((fresh []).run [.digit 1, .mark .divide, .digit 2, .equal]).press .clear).toFace =
      ⟨zero, .idle⟩ ∧
    ((fresh []).run [.digit 1, .mark .divide, .digit 2, .equal, .digit 5]).clearLabel = ['⌫'] ∧
    (((fresh []).run [.digit 1, .mark .divide, .digit 2, .equal, .digit 5]).press .clear).toFace =
      ⟨['0', '.', '5', '0'], .editing⟩ ∧
    (((fresh []).run [.digit 1, .mark .divide, .digit 2, .equal, .digit 5]).run
      (List.replicate 5 .clear)).toFace = ⟨zero, .idle⟩ := by
  have half : ((fresh []).run [.digit 1, .mark .divide, .digit 2, .equal]).clearLabel =
      ['A', 'C'] := rfl
  have shown : ((fresh []).run [.digit 1, .mark .divide, .digit 2, .equal, .digit 5]).toFace =
      ⟨['0', '.', '5', '0', '5'], .editing⟩ := by
    decide +kernel
  have label : ((fresh []).run [.digit 1, .mark .divide, .digit 2, .equal, .digit 5]).clearLabel =
      ['⌫'] := by
    rw [clearLabel, shown]
    rfl
  obtain ⟨all, -⟩ := clear_reaches_floor [] [.digit 1, .mark .divide, .digit 2, .equal]
  obtain ⟨-, last, n, short, gone⟩ :=
    clear_reaches_floor [] [.digit 1, .mark .divide, .digit 2, .equal, .digit 5]
  have taken := last label
  rw [shown] at taken short
  exact ⟨half, all half, label, taken, (gone 5).2 short⟩

end Calculator

end HeartKeypad
