import HeartKeypad.Proofs.Calculator.Clearing
import HeartKeypad.Proofs.Calculator.Typing

/-!
# Taking back what was typed

The clear key takes back a key that types a glyph: pressed right behind it, it leaves the display
that was there before.  There is one exception, a digit that is typed where the error mark stands
alone; it takes the place of the mark, and the mark does not come back.

* `Calculator.base` — what is left standing in front of a typed glyph.
* `Calculator.pressClear_showing_concat` — the clear key takes a typed glyph off its base again.
* `Calculator.clear_undoes_typing` — so one press takes back one key.
* `Calculator.run_typed_cleared` — and as many presses take back any number of keys.

### Where a zero is taken back

A lone zero makes way for the glyph, and the clear key then takes off the only character there is.
That leaves nothing, and a calculator with nothing to show shows a zero.  Where the glyph is a zero
itself, the calculator is idle at once, and the clear key is a different key, but one that shows a
zero as well.

The mode does not come back.  A result that was idle is being edited once something has been typed
behind it, and it still is when that has been taken back.
-/

namespace HeartKeypad

namespace Calculator

/-- **What is left of a display** in front of the glyph that a key types. -/
def base (k : Key) (display : Text) : Text :=
  if k.isDigit then digitBase display else markBase display

/-- The key is a digit, and takes the place of an error mark that stands alone. -/
def Overwrites (k : Key) (c : Calculator) : Prop := k.isDigit = true ∧ c.display = errorMark

variable {c : Calculator} {k : Key} {g : Char}

/-! ### One key -/

/-- A key that types a glyph shows it behind the base, and starts editing. -/
theorem press_of_glyph (hk : k.glyph? = some g) (c : Calculator) :
    c.press k = c.showing (base k c.display ++ [g]) .editing := by
  rcases digit_or_mark_of_glyph? hk with ⟨d, rfl, rfl⟩ | ⟨m, rfl, rfl⟩
  · rfl
  · rfl

/-- **The clear key takes a typed glyph off its base.** -/
theorem pressClear_showing_concat (c : Calculator) (front : Text) (g : Char) :
    (c.showing (front ++ [g]) .editing).pressClear = c.showing front .editing := by
  by_cases lone : front ++ [g] = zero
  · -- the glyph is a zero with nothing in front, so it is idle already
    obtain rfl : front = [] := by
      have one := congrArg List.length lone
      simpa [zero] using one
    rw [lone]
    rfl
  · have shown : c.showing (front ++ [g]) .editing =
        { c with toFace := ⟨front ++ [g], .editing⟩ } := by
      rw [showing, settle_of_ne (by simp) lone]
    rw [shown]
    show c.showing (front ++ [g]).dropLast .editing = _
    rw [List.dropLast_concat]

/-- Nothing but a zero or an overwritten error mark makes way for a glyph. -/
theorem base_eq (kept : ¬ Overwrites k c) : base k c.display = markBase c.display := by
  unfold base
  split
  · rename_i digit
    have other : c.display ≠ errorMark := fun mark => kept ⟨digit, mark⟩
    simp only [digitBase, markBase, other, or_false]
  · rfl

theorem base_of_overwrites (overwrites : Overwrites k c) : base k c.display = [] := by
  rw [base, if_pos overwrites.1, digitBase, if_pos (Or.inr overwrites.2)]

/-- A zero is settled where it has made way. -/
theorem showing_markBase (c : Calculator) (display : Text) (mode : Mode) :
    c.showing (markBase display) mode = c.showing display mode := by
  unfold markBase
  split
  · rename_i same
    rw [same, showing, showing, settle_nil, settle_zero]
  · rfl

/-- **One press takes back one key**, up to the mode. -/
theorem press_clear_of_typed (types : Types k) (kept : ¬ Overwrites k c) :
    (c.press k).press .clear = c.showing c.display .editing := by
  obtain ⟨g, hg⟩ := Option.isSome_iff_exists.1 types
  rw [press_of_glyph hg]
  show (c.showing _ .editing).pressClear = _
  rw [pressClear_showing_concat, base_eq kept, showing_markBase]

/-- An overwritten error mark leaves a zero. -/
theorem press_clear_of_overwrites (types : Types k) (overwrites : Overwrites k c) :
    ((c.press k).press .clear).toFace = floor := by
  obtain ⟨g, hg⟩ := Option.isSome_iff_exists.1 types
  rw [press_of_glyph hg]
  show (c.showing _ .editing).pressClear.toFace = _
  rw [pressClear_showing_concat, base_of_overwrites overwrites]
  rfl

/-- What is shown for editing once more. -/
theorem toFace_showing_self (shown : c.display ≠ []) : (c.showing c.display .editing).toFace =
    ⟨c.display, if c.display = zero then .idle else .editing⟩ := by
  show settle c.display .editing = _
  rw [settle, List.isEmpty_eq_false_iff.2 shown]
  rfl

/-! ### Any number of keys -/

/-- What has just been typed is being edited already. -/
theorem showing_display_of_typed (types : Types k) :
    (c.press k).showing (c.press k).display .editing = c.press k := by
  obtain ⟨g, hg⟩ := Option.isSome_iff_exists.1 types
  have nonempty : base k c.display ++ [g] ≠ [] := by simp
  rw [press_of_glyph hg, display_showing nonempty]
  rfl

/-- A glyph has been typed, so the error mark does not stand alone. -/
theorem not_overwrites_press (types : Types k) (next : Key) : ¬ Overwrites next (c.press k) := by
  rintro ⟨-, mark⟩
  obtain ⟨g, hg⟩ := Option.isSome_iff_exists.1 types
  rw [press_of_glyph hg, display_showing (by simp)] at mark
  have last := congrArg List.getLast? mark
  rw [List.getLast?_concat] at last
  have letter : g = 'r' := Option.some.inj last
  have absent : 'r' ∉ keypadGlyphs := by decide
  exact absent (letter ▸ glyph_mem_keypadGlyphs hg)

/-- **As many presses take back any number of keys**: what was shown before them is shown again,
unless the first of them has overwritten the error mark. -/
theorem run_typed_cleared {keys : List Key} (types : ∀ j ∈ k :: keys, Types j)
    (kept : ¬ Overwrites k c) :
    (c.run (k :: keys)).run (List.replicate (k :: keys).length .clear) =
      c.showing c.display .editing := by
  induction keys generalizing c k with
  | nil => exact press_clear_of_typed (types k List.mem_cons_self) kept
  | cons next keys ih =>
      obtain ⟨first, others⟩ := List.forall_mem_cons.1 types
      -- the keys behind the first are taken back, and then the first
      have back := ih (c := c.press k) others (not_overwrites_press first next)
      rw [showing_display_of_typed first] at back
      rw [List.length_cons, List.replicate_succ', run_concat]
      show (((c.press k).run (next :: keys)).run
        (List.replicate (next :: keys).length .clear)).press .clear = _
      rw [back]
      exact press_clear_of_typed first kept

/-- **The clear key takes back a typed glyph.**  Whatever keys were pressed: behind a digit or a
mark, one press of the clear key shows the display that was there before, and editing goes on unless
that is a zero.  A digit that has overwritten the error mark leaves an idle zero instead. -/
theorem clear_undoes_typing (egg : Text) (keys : List Key) {k : Key} (types : Types k) :
    (¬ (k.isDigit = true ∧ ((fresh egg).run keys).display = errorMark) →
      ((((fresh egg).run keys).press k).press .clear).display = ((fresh egg).run keys).display ∧
      ((((fresh egg).run keys).press k).press .clear).mode =
        if ((fresh egg).run keys).display = zero then .idle else .editing) ∧
    (k.isDigit = true ∧ ((fresh egg).run keys).display = errorMark →
      ((((fresh egg).run keys).press k).press .clear).toFace = ⟨zero, .idle⟩) := by
  have shown : ((fresh egg).run keys).display ≠ [] := ((legible_zero egg).run keys).ne_nil
  generalize (fresh egg).run keys = c at shown ⊢
  refine ⟨fun kept => ?_, press_clear_of_overwrites types⟩
  rw [press_clear_of_typed types kept, toFace_showing_self shown]
  exact ⟨rfl, rfl⟩

/-- A five is taken back from behind `7×` and from a zero, and a plus from behind an error mark; a
five that has overwritten the mark leaves a zero. -/
theorem clear_undoes_typing_of_five :
    ((((fresh []).run [.digit 7, .mark .multiply]).press (.digit 5)).press .clear).display =
        ['7', '×'] ∧
      (((fresh []).press (.digit 5)).press .clear).display = zero ∧
      ((((fresh []).run [.mark .add, .equal]).press (.mark .add)).press .clear).display =
        errorMark ∧
      ((((fresh []).run [.mark .add, .equal]).press (.digit 5)).press .clear).toFace =
        ⟨zero, .idle⟩ := by
  have five : Types (.digit 5) := rfl
  have plus : Types (.mark .add) := rfl
  have product : ((fresh []).run [.digit 7, .mark .multiply]).display = ['7', '×'] := by decide
  have failed : ((fresh []).run [.mark .add, .equal]).display = errorMark := by decide
  have other : ['7', '×'] ≠ errorMark := by decide
  refine ⟨?_, ?_, ?_, ?_⟩
  · have back := (clear_undoes_typing [] [.digit 7, .mark .multiply] five).1
      fun overwrites => other (product.symm.trans overwrites.2)
    exact back.1.trans product
  · exact ((clear_undoes_typing [] [] five).1 fun overwrites => nomatch overwrites.2).1
  · have back := (clear_undoes_typing [] [.mark .add, .equal] plus).1
      fun overwrites => nomatch overwrites.1
    exact back.1.trans failed
  · exact (clear_undoes_typing [] [.mark .add, .equal] five).2 ⟨rfl, failed⟩

end Calculator

end HeartKeypad
