import HeartKeypad.Calculator
import HeartKeypad.Proofs.Expression.Result

/-!
# What the display can show

A calculator starts with a zero and is driven by keys.  `Calculator.Legible` is what holds
of it after any number of them: the display is never empty, a lone zero is idle, an idle
display is a result or the error mark, and every display is typed from the keypad, or
starts with what is left of the error mark.

### Why the four clauses stand together

The clear key takes everything off an idle display, so nothing half-typed is lost only as
long as the mode tells the truth; the percent key keeps the mode, so it has to leave a
result; and a result is written without an exponent only because nothing but finite
doubles reaches the display.  `Calculator.legible_showing` is the one place where the
clauses are put together, and each key has to say what it shows and in which mode.
-/

namespace HeartKeypad

namespace Calculator

open Result

/-! ### Displays -/

/-- The fifteen glyphs that the keys type. -/
def keypadGlyphs : Text :=
  ['0', '1', '2', '3', '4', '5', '6', '7', '8', '9', '+', '-', '×', '÷', '.']

/-- The text holds glyphs of the keypad only. -/
def Typed (s : Text) : Prop := ∀ c ∈ s, c ∈ keypadGlyphs

/-- What is left of the error mark when characters are taken off its end: at least one
character, that is. -/
def Remnant (mark : Text) : Prop := mark ≠ [] ∧ mark <+: errorMark

/-- **The texts that a display can show**: a typed one, or a remnant of the error mark
with something typed behind it and at most a minus in front. -/
inductive IsDisplay : Text → Prop
  | typed {s : Text} : Typed s → IsDisplay s
  | marked {mark rest : Text} : Remnant mark → Typed rest → IsDisplay (mark ++ rest)
  | negated {mark rest : Text} : Remnant mark → Typed rest →
      IsDisplay ('-' :: (mark ++ rest))

/-- **A calculator in order.** -/
structure Legible (c : Calculator) : Prop where
  /-- Something is shown. -/
  ne_nil : c.display ≠ []
  /-- A lone zero is not being edited. -/
  zero_idle : c.display = zero → c.mode = .idle
  /-- What is not being edited is a result or the error mark. -/
  idle_result : c.mode = .idle → c.display = errorMark ∨ IsText c.display
  /-- The display is typed, or marked as an error. -/
  isDisplay : IsDisplay c.display

/-- The calculator after a number of keys. -/
def run (keys : List Key) (c : Calculator) : Calculator :=
  keys.foldl (fun c k => c.press k) c

theorem run_concat (keys : List Key) (k : Key) (c : Calculator) :
    c.run (keys ++ [k]) = (c.run keys).press k := by
  simp [run]

theorem typed_nil : Typed [] := fun _ h => nomatch h

theorem typed_append {s t : Text} : Typed (s ++ t) ↔ Typed s ∧ Typed t :=
  List.forall_mem_append

theorem typed_cons {c : Char} {s : Text} : Typed (c :: s) ↔ c ∈ keypadGlyphs ∧ Typed s :=
  List.forall_mem_cons

theorem typed_singleton {c : Char} : Typed [c] ↔ c ∈ keypadGlyphs := List.forall_mem_singleton

theorem digit_mem_keypadGlyphs (d : Digit) : d.glyph ∈ keypadGlyphs := by
  revert d; decide

theorem mark_mem_keypadGlyphs (m : Mark) : m.glyph ∈ keypadGlyphs := by
  cases m <;> decide

theorem minus_mem_keypadGlyphs : '-' ∈ keypadGlyphs := mark_mem_keypadGlyphs .subtract

/-- A digit character is on the keypad. -/
theorem mem_keypadGlyphs_of_isDigit {c : Char} (h : Numeral.isDigit c = true) :
    c ∈ keypadGlyphs := by
  rw [Numeral.isDigit, Bool.and_eq_true, decide_eq_true_eq, decide_eq_true_eq] at h
  have key := digit_mem_keypadGlyphs ⟨c.toNat - 48, by omega⟩
  rwa [Digit.glyph, Nat.add_sub_cancel' h.1, Char.ofNat_toNat] at key

/-- A result is made of glyphs that could have been typed. -/
theorem typed_of_isText {s : Text} (h : IsText s) : Typed s := by
  have digits : ∀ {ds : Text}, Numeral.Digits ds → Typed ds :=
    fun hds c hc => mem_keypadGlyphs_of_isDigit (hds c hc)
  have places : ∀ {ps : Text}, IsPlaces ps → Typed ps := by
    intro ps hps
    cases hps with
    | none => exact typed_nil
    | two ha hb =>
        exact typed_cons.2 ⟨mark_mem_keypadGlyphs .decimal,
          typed_cons.2 ⟨mem_keypadGlyphs_of_isDigit ha,
            typed_singleton.2 (mem_keypadGlyphs_of_isDigit hb)⟩⟩
  cases h with
  | plain hw hp => exact typed_append.2 ⟨digits hw.digits, places hp⟩
  | negative hw hp =>
      exact typed_cons.2 ⟨minus_mem_keypadGlyphs,
        typed_append.2 ⟨digits hw.digits, places hp⟩⟩

/-! ### Editing a display -/

theorem remnant_errorMark : Remnant errorMark := ⟨by decide, List.prefix_rfl⟩

/-- A remnant starts with the first character of the error mark. -/
theorem Remnant.eq_cons {mark : Text} (h : Remnant mark) : ∃ r, mark = 'E' :: r := by
  obtain ⟨nonempty, rest, split⟩ := h
  cases mark with
  | nil => exact absurd rfl nonempty
  | cons c r => exact ⟨r, by rw [(List.cons.inj split).1]⟩

theorem Typed.dropLast {s : Text} (h : Typed s) : Typed s.dropLast :=
  fun c hc => h c (List.dropLast_subset s hc)

/-- Taking a character off a remnant with something typed behind it: what was typed goes
first, and then the remnant itself. -/
theorem Remnant.dropLast_append {mark rest : Text} (hm : Remnant mark) (hr : Typed rest) :
    (mark ++ rest).dropLast = [] ∨ ∃ less back, Remnant less ∧ Typed back ∧
      (mark ++ rest).dropLast = less ++ back := by
  by_cases typed : rest = []
  · rw [typed, List.append_nil]
    by_cases last : mark.dropLast = []
    · exact Or.inl last
    · have less : Remnant mark.dropLast := ⟨last, (List.dropLast_prefix mark).trans hm.2⟩
      exact Or.inr ⟨mark.dropLast, [], less, typed_nil, (List.append_nil _).symm⟩
  · exact Or.inr ⟨mark, rest.dropLast, hm, hr.dropLast, List.dropLast_append_of_ne_nil typed⟩

/-- Typing a glyph behind a display. -/
theorem IsDisplay.append {s : Text} (h : IsDisplay s) {c : Char} (hc : c ∈ keypadGlyphs) :
    IsDisplay (s ++ [c]) := by
  cases h with
  | typed hs => exact IsDisplay.typed (typed_append.2 ⟨hs, typed_singleton.2 hc⟩)
  | marked hm hr =>
      rw [List.append_assoc]
      exact IsDisplay.marked hm (typed_append.2 ⟨hr, typed_singleton.2 hc⟩)
  | negated hm hr =>
      rw [List.cons_append, List.append_assoc]
      exact IsDisplay.negated hm (typed_append.2 ⟨hr, typed_singleton.2 hc⟩)

/-- Taking the last character off a display. -/
theorem IsDisplay.dropLast {s : Text} (h : IsDisplay s) : IsDisplay s.dropLast := by
  cases h with
  | typed hs => exact IsDisplay.typed hs.dropLast
  | marked hm hr =>
      rcases hm.dropLast_append hr with last | ⟨less, back, hless, hback, split⟩
      · rw [last]
        exact IsDisplay.typed typed_nil
      · rw [split]
        exact IsDisplay.marked hless hback
  | negated hm hr =>
      rw [List.dropLast_cons_of_ne_nil (List.append_ne_nil_of_left_ne_nil hm.1 _)]
      rcases hm.dropLast_append hr with last | ⟨less, back, hless, hback, split⟩
      · -- the minus alone is left, and could have been typed
        rw [last]
        exact IsDisplay.typed (typed_singleton.2 minus_mem_keypadGlyphs)
      · rw [split]
        exact IsDisplay.negated hless hback

/-- Taking a leading minus off a display. -/
theorem IsDisplay.tail {s : Text} (h : IsDisplay ('-' :: s)) : IsDisplay s := by
  generalize ht : '-' :: s = t at h
  cases h with
  | typed hs =>
      rw [← ht] at hs
      exact IsDisplay.typed (typed_cons.1 hs).2
  | marked hm hr =>
      -- no remnant starts with a minus
      obtain ⟨r, rfl⟩ := hm.eq_cons
      cases ht
  | negated hm hr =>
      obtain rfl := List.tail_eq_of_cons_eq ht
      exact IsDisplay.marked hm hr

/-- Putting a minus in front of a display that has none. -/
theorem IsDisplay.cons {s : Text} (h : IsDisplay s) (bare : ∀ r, s ≠ '-' :: r) :
    IsDisplay ('-' :: s) := by
  cases h with
  | typed hs => exact IsDisplay.typed (typed_cons.2 ⟨minus_mem_keypadGlyphs, hs⟩)
  | marked hm hr => exact IsDisplay.negated hm hr
  | negated _ _ => exact absurd rfl (bare _)

/-! ### One key -/

theorem legible_zero (egg : Text) : Legible ⟨⟨zero, .idle⟩, egg⟩ where
  ne_nil := by simp [zero]
  zero_idle := fun _ => rfl
  idle_result := fun _ => Or.inr isText_zero
  isDisplay := IsDisplay.typed (typed_singleton.2 (digit_mem_keypadGlyphs 0))

theorem settle_nil (mode : Mode) : settle [] mode = ⟨zero, .idle⟩ := rfl

theorem settle_zero (mode : Mode) : settle zero mode = ⟨zero, .idle⟩ := rfl

theorem settle_of_ne {display : Text} (nonempty : display ≠ []) (nonzero : display ≠ zero)
    (mode : Mode) : settle display mode = ⟨display, mode⟩ := by
  rw [settle, List.isEmpty_eq_false_iff.2 nonempty]
  simp only [Bool.false_eq_true, if_false, if_neg nonzero]

theorem display_showing {c : Calculator} {display : Text} (h : display ≠ []) (mode : Mode) :
    (c.showing display mode).display = display := by
  rw [showing]
  rcases eq_or_ne display zero with rfl | nonzero
  · rfl
  · rw [settle_of_ne h nonzero]

/-- **Showing a display puts a calculator in order**, provided that what is shown as
finished is a result or the error mark. -/
theorem legible_showing (c : Calculator) {display : Text} {mode : Mode}
    (hd : IsDisplay display)
    (finished : mode = .idle → display = errorMark ∨ IsText display) :
    Legible (c.showing display mode) := by
  rw [showing]
  rcases eq_or_ne display [] with rfl | nonempty
  · rw [settle_nil]
    exact legible_zero c.egg
  rcases eq_or_ne display zero with rfl | nonzero
  · rw [settle_zero]
    exact legible_zero c.egg
  rw [settle_of_ne nonempty nonzero]
  exact ⟨nonempty, fun h => absurd h nonzero, finished, hd⟩

/-- What is shown while editing need not be finished. -/
theorem legible_editing (c : Calculator) {display : Text} (hd : IsDisplay display) :
    Legible (c.showing display .editing) :=
  legible_showing c hd fun h => nomatch h

theorem isDisplay_digitBase {s : Text} (h : IsDisplay s) : IsDisplay (digitBase s) := by
  rw [digitBase]
  split
  · exact IsDisplay.typed typed_nil
  · exact h

theorem isDisplay_markBase {s : Text} (h : IsDisplay s) : IsDisplay (markBase s) := by
  rw [markBase]
  split
  · exact IsDisplay.typed typed_nil
  · exact h

theorem isDisplay_of_isText {s : Text} (h : IsText s) : IsDisplay s :=
  IsDisplay.typed (typed_of_isText h)

theorem isDisplay_errorMark : IsDisplay errorMark := by
  rw [← List.append_nil errorMark]
  exact IsDisplay.marked remnant_errorMark typed_nil

theorem answer_of_ok {display : Text} {x : Float} (value : Expression.evaluate display = .ok x) :
    answer display = format x := by
  rw [answer, value]

theorem answer_of_error {display : Text} {fault : EvalFault}
    (failed : Expression.evaluate display = .error fault) : answer display = errorMark := by
  rw [answer, failed]

/-- What `=` shows is the error mark or a result. -/
theorem answer_eq_or_isText (display : Text) :
    answer display = errorMark ∨ IsText (answer display) := by
  unfold answer
  split
  · rename_i x value
    exact Or.inr (isText_format (Expression.isFinite_of_evaluate value))
  · exact Or.inl rfl

namespace Legible

variable {c : Calculator}

theorem pressDigit (h : Legible c) (d : Digit) : Legible (c.pressDigit d) :=
  legible_editing c ((isDisplay_digitBase h.isDisplay).append (digit_mem_keypadGlyphs d))

theorem pressMark (h : Legible c) (m : Mark) : Legible (c.pressMark m) :=
  legible_editing c ((isDisplay_markBase h.isDisplay).append (mark_mem_keypadGlyphs m))

/-- Whatever is shown, `=` leaves a calculator in order. -/
theorem pressEqual (c : Calculator) : Legible c.pressEqual := by
  have finished := answer_eq_or_isText c.display
  refine legible_showing c ?_ fun _ => finished
  rcases finished with error | result
  · rw [error]
    exact isDisplay_errorMark
  · exact isDisplay_of_isText result

theorem pressClear (h : Legible c) : Legible c.pressClear := by
  rw [Calculator.pressClear]
  cases c.mode with
  | idle =>
      exact legible_showing c (isDisplay_of_isText isText_zero) fun _ => Or.inr isText_zero
  | editing => exact legible_editing c h.isDisplay.dropLast

theorem pressNegate (h : Legible c) : Legible c.pressNegate := by
  have shown := h.isDisplay
  unfold Calculator.pressNegate
  split
  · rename_i rest minus
    rw [minus] at shown
    exact legible_editing c shown.tail
  · rename_i bare
    exact legible_editing c (shown.cons bare)

/-- The percent key keeps the mode, so what it shows has to be finished if what was
shown is. -/
theorem pressPercent (h : Legible c) : Legible c.pressPercent := by
  unfold Calculator.pressPercent
  split
  · rename_i x read
    have result : IsText (format (x / 100.0)) :=
      isText_format (Double.isFinite_div_hundred (isFinite_of_read? read))
    exact legible_showing c (isDisplay_of_isText result) fun _ => Or.inr result
  · exact legible_showing c h.isDisplay h.idle_result

/-- **Every key keeps a calculator in order.** -/
theorem press (h : Legible c) (k : Key) : Legible (c.press k) := by
  cases k with
  | digit d => exact h.pressDigit d
  | mark m => exact h.pressMark m
  | equal => exact pressEqual c
  | clear => exact h.pressClear
  | percent => exact h.pressPercent
  | negate => exact h.pressNegate

/-- Any number of keys keep it in order. -/
theorem run (h : Legible c) (keys : List Key) : Legible (c.run keys) := by
  induction keys generalizing c with
  | nil => exact h
  | cons k keys ih => exact ih (h.press k)

end Legible

/-- **Whatever is typed, the calculator stays in order**: from a fresh one, with any
easter egg, no keys in any order lead to a display that is empty, a lone zero that is
being edited, something idle that is not finished, or a text that holds more than glyphs
of the keypad and what is left of the error mark. -/
theorem legible_run_fresh (egg : Text) (keys : List Key) :
    Legible ((fresh egg).run keys) :=
  (legible_zero egg).run keys

end Calculator

end HeartKeypad
