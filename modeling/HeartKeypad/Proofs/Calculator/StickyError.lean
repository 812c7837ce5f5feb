import HeartKeypad.Proofs.Calculator.ErrorMark
import HeartKeypad.Proofs.Calculator.Typing
import HeartKeypad.Proofs.Expression.Viable

/-!
# An error stays

A display with letters on it is an error, or what the clear key has left of one.  Whatever is
typed behind it or put in front, it cannot be evaluated, and it is no bare number either; so `=`
puts the whole error mark back, and the percent key does nothing.  Only the clear key takes the
letters off, and a digit that is typed where the error mark stands alone.

* `Calculator.Lettered` — the text holds a letter.
* `Calculator.Lifts` — the keys that may take the letters off.
* `Calculator.Lettered.press`, `Calculator.Lettered.run` — the other keys leave letters.
* `Calculator.error_sticks` — what is shown after each of them.

### Why no key completes the letters

The letters of a display are a beginning of the error mark, so an `E` is among them
(`IsDisplay.mem_of_lettered`).  It is no blank, no digit and no glyph of an operator, and a text
with such a character has a lexical fault wherever that character stands
(`Expression.evaluate_of_stray`).
-/

namespace HeartKeypad

open Expression (evaluate)

namespace Calculator

/-- **The text holds a letter.** -/
def Lettered (s : Text) : Prop := ∃ c ∈ s, c.isAlpha = true

/-- A key that may take the letters off: the clear key, or a digit where the error mark stands
alone. -/
def Lifts (k : Key) (c : Calculator) : Prop :=
  k = .clear ∨ (∃ d, k = .digit d) ∧ c.display = errorMark

/-! ### Displays with letters -/

theorem lettered_iff {s : Text} : Lettered s ↔ letters s ≠ [] := by
  rw [ne_eq, letters_eq_nil_iff]
  simp [Lettered]

theorem lettered_errorMark : Lettered errorMark := ⟨'E', by decide, by decide⟩

theorem Lettered.not_typed {s : Text} (h : Lettered s) : ¬ Typed s :=
  fun typed => lettered_iff.1 h typed.letters

/-- The first letter of the error mark means nothing in an expression. -/
theorem stray_E : Text.Stray 'E' where
  not_blank := by decide
  not_numeral := by decide
  not_glyph := by
    intro op glyph
    cases glyph

/-- The letters of a display start with that one. -/
theorem IsDisplay.mem_of_lettered {s : Text} (h : IsDisplay s) (letter : Lettered s) :
    'E' ∈ s := by
  have remnant : Remnant (letters s) := ⟨lettered_iff.1 letter, h.letters_prefix⟩
  obtain ⟨r, first⟩ := remnant.eq_cons
  have among : 'E' ∈ letters s := by
    rw [first]
    exact List.mem_cons_self
  exact (List.mem_filter.1 among).1

/-- `=` finds no expression on a display with letters. -/
theorem IsDisplay.answer_of_lettered {s : Text} (h : IsDisplay s) (letter : Lettered s) :
    answer s = errorMark := by
  obtain ⟨f, fault⟩ := Expression.evaluate_of_stray (h.mem_of_lettered letter) stray_E
  exact answer_of_error fault

/-- The percent key finds no number on it. -/
theorem Lettered.read?_eq_none {s : Text} (h : Lettered s) : Result.read? s = none := by
  cases read : Result.read? s with
  | none => rfl
  | some x => exact absurd (typed_of_read? read) h.not_typed

/-! ### One key -/

namespace Lettered

variable {c : Calculator}

theorem toFace_pressEqual (h : Lettered c.display) (legible : Legible c) :
    c.pressEqual.toFace = ⟨errorMark, .idle⟩ := by
  rw [Calculator.toFace_pressEqual, legible.isDisplay.answer_of_lettered h]

/-- A display with letters is neither empty nor a lone zero, so it is settled already. -/
theorem toFace_pressPercent (h : Lettered c.display) : c.pressPercent.toFace = c.toFace := by
  have nonempty : c.display ≠ [] := fun empty => h.not_typed (empty ▸ typed_nil)
  have nonzero : c.display ≠ zero := fun same =>
    h.not_typed (same ▸ typed_singleton.2 (digit_mem_keypadGlyphs 0))
  rw [pressPercent, h.read?_eq_none]
  exact settle_of_ne nonempty nonzero c.mode

/-- **Letters are left by every key that does not lift them.** -/
theorem press (h : Lettered c.display) (legible : Legible c) {k : Key} (kept : ¬ Lifts k c) :
    Lettered (c.press k).display := by
  by_cases equal : k = .equal
  · subst equal
    show Lettered c.pressEqual.toFace.display
    rw [h.toFace_pressEqual legible]
    exact lettered_errorMark
  · have same : letters (c.press k).display = letters c.display :=
      letters_press_of_ne equal (fun clear => kept (Or.inl clear))
        fun d digit shown => kept (Or.inr ⟨⟨d, digit⟩, shown⟩)
    rw [lettered_iff, same, ← lettered_iff]
    exact h

/-- Any number of such keys leave some. -/
theorem run (h : Lettered c.display) (legible : Legible c) {keys : List Key}
    (kept : ∀ mid k, mid ++ [k] <+: keys → ¬ Lifts k (c.run mid)) :
    Lettered (c.run keys).display := by
  induction keys using List.reverseRecOn with
  | nil => exact h
  | append_singleton keys k ih =>
      have before := ih fun mid k' earlier =>
        kept mid k' (earlier.trans (List.prefix_append keys [k]))
      rw [run_concat]
      exact before.press (legible.run keys) (kept keys k List.prefix_rfl)

end Lettered

/-! ### Any number of keys -/

/-- **An error stays.**  From any display with letters that keys have led to, as long as the clear
key is not pressed, and no digit where the error mark stands alone: there are letters after each
key, `=` leaves the error mark, and the percent key changes nothing. -/
theorem error_sticks {egg : Text} {before : List Key} {c : Calculator}
    (reached : c = (fresh egg).run before) (letter : Lettered c.display) {keys : List Key}
    (kept : ∀ mid k, mid ++ [k] <+: keys → ¬ Lifts k (c.run mid)) :
    ∀ mid k, mid ++ [k] <+: keys →
      Lettered (c.run (mid ++ [k])).display ∧
      (k = .equal → (c.run (mid ++ [k])).toFace = ⟨errorMark, .idle⟩) ∧
      (k = .percent → (c.run (mid ++ [k])).toFace = (c.run mid).toFace) := by
  have legible : Legible c := by
    rw [reached]
    exact (legible_zero egg).run before
  intro mid k earlier
  have now : Lettered (c.run mid).display := letter.run legible fun front k' sooner =>
    kept front k' (sooner.trans ((List.prefix_append mid [k]).trans earlier))
  rw [run_concat]
  refine ⟨now.press (legible.run mid) (kept mid k earlier), ?_, ?_⟩
  · rintro rfl
    exact now.toFace_pressEqual (legible.run mid)
  · rintro rfl
    exact now.toFace_pressPercent

/-- A lone plus is evaluated and gives an error, and `-5` is typed behind it: the percent key does
nothing to that, and `=` leaves the error mark again. -/
theorem error_sticks_behind_minus_five :
    ((fresh []).run [.mark .add, .equal, .mark .subtract, .digit 5, .percent]).toFace =
        ((fresh []).run [.mark .add, .equal, .mark .subtract, .digit 5]).toFace ∧
      ((fresh []).run [.mark .add, .equal, .mark .subtract, .digit 5, .percent, .equal]).toFace =
        ⟨errorMark, .idle⟩ := by
  have letter : Lettered ((fresh []).run [.mark .add, .equal]).display :=
    ⟨'E', by decide, by decide⟩
  have kept : ∀ mid k, mid ++ [k] <+: [.mark .subtract, .digit 5, .percent, .equal] →
      ¬ Lifts k (((fresh []).run [.mark .add, .equal]).run mid) := by
    rintro mid k earlier (rfl | ⟨⟨d, rfl⟩, shown⟩)
    · have pressed : Key.clear ∈ [Key.mark .subtract, .digit 5, .percent, .equal] :=
        earlier.subset (by simp)
      exact absurd pressed (by decide)
    · -- the five is the only digit, and the minus is shown by then
      rcases mid with _ | ⟨k₁, _ | ⟨k₂, _ | ⟨k₃, _ | ⟨k₄, mid⟩⟩⟩⟩ <;>
        simp only [List.nil_append, List.cons_append, List.cons_prefix_cons, reduceCtorEq,
          false_and, and_false, List.prefix_nil, List.append_eq_nil_iff] at earlier
      obtain ⟨rfl, -⟩ := earlier
      exact absurd shown (by decide)
  have sticks := error_sticks rfl letter kept
  exact ⟨(sticks [.mark .subtract, .digit 5] .percent (by simp)).2.2 rfl,
    (sticks [.mark .subtract, .digit 5, .percent] .equal List.prefix_rfl).2.1 rfl⟩

end Calculator

end HeartKeypad
