import HeartKeypad.Proofs.Calculator.Display
import HeartKeypad.Proofs.Expression.LeadingZeros

/-!
# Typing an expression and evaluating it

An expression that is typed on a fresh calculator does not stand on the display as it was
typed: a zero that stands alone gives way to the glyph behind it, be it a digit or a mark.
`Calculator.echo` is what is shown instead, the typed glyphs without their leading zeros
(`Calculator.display_run_fresh`).

* `Calculator.equal_of_typed` — `=` shows the value of the typed expression, unless the zero
  that was given up was needed.
* `Calculator.equal_may_need_zero` — it does not show the value of every typed expression.
-/

namespace HeartKeypad

open Text (behindZeros Unbroken)
open Expression (evaluate needsZero)

namespace Calculator

/-- The key types a glyph. -/
def Types (k : Key) : Prop := k.glyph?.isSome = true

/-- The glyphs that keys type, in order. -/
def glyphs (keys : List Key) : Text := keys.filterMap Key.glyph?

/-- **What is shown of typed glyphs**: all but the leading zeros, or a zero. -/
def echo (typed : Text) : Text :=
  if behindZeros typed = [] then zero else behindZeros typed

/-! ### Glyphs of the keypad -/

/-- Only digits and marks type a glyph. -/
theorem digit_or_mark_of_glyph? {k : Key} {c : Char} (h : k.glyph? = some c) :
    (∃ d : Digit, k = .digit d ∧ d.glyph = c) ∨ ∃ m : Mark, k = .mark m ∧ m.glyph = c := by
  cases k with
  | digit d => exact Or.inl ⟨d, rfl, Option.some.inj h⟩
  | mark m => exact Or.inr ⟨m, rfl, Option.some.inj h⟩
  | equal | clear | percent | negate => cases h

theorem glyph_mem_keypadGlyphs {k : Key} {c : Char} (h : k.glyph? = some c) :
    c ∈ keypadGlyphs := by
  rcases digit_or_mark_of_glyph? h with ⟨d, -, rfl⟩ | ⟨m, -, rfl⟩
  · exact digit_mem_keypadGlyphs d
  · exact mark_mem_keypadGlyphs m

theorem typed_glyphs (keys : List Key) : Typed (glyphs keys) := by
  intro c hc
  obtain ⟨k, -, hk⟩ := List.mem_filterMap.1 hc
  exact glyph_mem_keypadGlyphs hk

theorem Typed.unbroken {s : Text} (h : Typed s) : Unbroken s := by
  have none : keypadGlyphs.all (fun c => !Text.isBlank c) = true := by decide
  intro c hc
  have visible := List.all_eq_true.1 none c (h c hc)
  simpa using visible

theorem Typed.ne_errorMark {s : Text} (h : Typed s) : s ≠ errorMark := by
  rintro rfl
  have absent : 'E' ∉ keypadGlyphs := by decide
  exact absent (h 'E' List.mem_cons_self)

theorem Typed.behindZeros {s : Text} (h : Typed s) : Typed (behindZeros s) :=
  fun c hc => h c ((List.dropWhile_suffix _).subset hc)

/-! ### Typing -/

/-- No zero is left to stand alone. -/
theorem behindZeros_ne_zero (s : Text) : behindZeros s ≠ zero := by
  induction s with
  | nil => simp [Text.behindZeros, zero]
  | cons c s ih =>
      by_cases hc : c = '0'
      · rw [hc]
        exact ih
      · rw [Text.behindZeros_cons_of_ne hc]
        simp [zero, hc]

/-- A mark is typed behind what stands behind the zeros. -/
theorem markBase_echo (s : Text) : markBase (echo s) = behindZeros s := by
  unfold markBase echo
  by_cases gone : behindZeros s = []
  · simp [gone]
  · simp [gone, behindZeros_ne_zero]

/-- So is a digit. -/
theorem digitBase_echo {s : Text} (h : Typed s) : digitBase (echo s) = behindZeros s := by
  unfold digitBase echo
  by_cases gone : behindZeros s = []
  · simp [gone]
  · simp [gone, behindZeros_ne_zero, h.behindZeros.ne_errorMark]

/-- Whatever is typed then is shown. -/
theorem echo_concat (s : Text) (c : Char) : echo (s ++ [c]) = behindZeros s ++ [c] := by
  induction s with
  | nil =>
      by_cases hc : c = '0'
      · rw [hc]
        rfl
      · simp [echo, Text.behindZeros, hc]
  | cons d s ih =>
      by_cases hd : d = '0'
      · rw [hd]
        exact ih
      · rw [List.cons_append, echo, Text.behindZeros_cons_of_ne hd, Text.behindZeros_cons_of_ne hd]
        rfl

/-- **Typing a glyph.** -/
theorem display_press {c : Calculator} {s : Text} (h : Typed s) (shown : c.display = echo s)
    {k : Key} {g : Char} (hk : k.glyph? = some g) : (c.press k).display = echo (s ++ [g]) := by
  have typed : ∀ base : Text, base = behindZeros s →
      (c.showing (base ++ [g]) .editing).display = echo (s ++ [g]) := by
    rintro _ rfl
    rw [echo_concat, display_showing (by simp)]
  rcases digit_or_mark_of_glyph? hk with ⟨d, rfl, rfl⟩ | ⟨m, rfl, rfl⟩
  · exact typed _ (shown ▸ digitBase_echo h)
  · exact typed _ (shown ▸ markBase_echo s)

/-- Typing any number of glyphs. -/
theorem display_run {c : Calculator} {s : Text} (h : Typed s) (shown : c.display = echo s)
    {keys : List Key} (types : ∀ k ∈ keys, Types k) :
    (c.run keys).display = echo (s ++ glyphs keys) := by
  induction keys generalizing c s with
  | nil => rw [glyphs, List.filterMap_nil, List.append_nil]; exact shown
  | cons k keys ih =>
      obtain ⟨first, others⟩ := List.forall_mem_cons.1 types
      obtain ⟨g, hg⟩ := Option.isSome_iff_exists.1 first
      have more : Typed (s ++ [g]) :=
        typed_append.2 ⟨h, typed_singleton.2 (glyph_mem_keypadGlyphs hg)⟩
      have split : s ++ glyphs (k :: keys) = s ++ [g] ++ glyphs keys := by
        rw [glyphs, List.filterMap_cons_some hg, List.append_assoc]
        rfl
      rw [split]
      exact ih more (display_press h shown hg) others

/-- **A fresh calculator shows what is typed without its leading zeros.** -/
theorem display_run_fresh (egg : Text) {keys : List Key} (types : ∀ k ∈ keys, Types k) :
    ((fresh egg).run keys).display = echo (glyphs keys) :=
  display_run typed_nil rfl types

/-! ### Evaluating -/

theorem isText_ne_nil {s : Text} (h : Result.IsText s) : s ≠ [] := by
  cases h with
  | plain hw _ => cases hw <;> simp
  | negative _ _ => simp

theorem toFace_pressEqual (c : Calculator) : c.pressEqual.toFace = ⟨answer c.display, .idle⟩ := by
  have shown : answer c.display ≠ [] := by
    rcases answer_eq_or_isText c.display with error | result
    · rw [error]
      decide
    · exact isText_ne_nil result
  show settle (answer c.display) .idle = _
  rcases eq_or_ne (answer c.display) zero with same | nonzero
  · rw [same]
    rfl
  · exact settle_of_ne shown nonzero .idle

/-- **What `=` makes of typed glyphs** that are an expression. -/
theorem answer_echo {s : Text} (h : Typed s) {v : Float} (value : evaluate s = .ok v) :
    answer (echo s) =
      if needsZero (behindZeros s) then errorMark else Result.format v := by
  cases needs : needsZero (behindZeros s) with
  | false =>
      obtain ⟨w, hw, alike⟩ := Expression.evaluate_behindZeros h.unbroken value needs
      have finite := Expression.isFinite_of_evaluate value
      rw [answer, echo, zero, hw, Result.format_alike alike finite]
      rfl
  | true =>
      -- something is left, and it is no expression
      have left : behindZeros s ≠ [] := by
        intro gone
        rw [gone] at needs
        cases needs
      rw [answer, echo, if_neg left]
      cases hw : evaluate (behindZeros s) with
      | error e => rfl
      | ok w =>
          obtain ⟨chain, spells, -⟩ := Expression.spells_of_evaluate hw
          rw [Expression.needsZero_of_derivable ⟨chain, spells⟩] at needs
          cases needs

/-- **`=` shows the value of the typed expression**, unless the text behind its leading zeros
needs one of them: then it shows the error mark. -/
theorem equal_of_typed (egg : Text) {keys : List Key} (types : ∀ k ∈ keys, Types k)
    {v : Float} (value : evaluate (glyphs keys) = .ok v) :
    ((fresh egg).run (keys ++ [.equal])).toFace =
      ⟨if needsZero (behindZeros (glyphs keys)) then errorMark else Result.format v, .idle⟩ := by
  have last : (fresh egg).run (keys ++ [.equal]) = ((fresh egg).run keys).pressEqual :=
    List.foldl_append
  rw [last, toFace_pressEqual, display_run_fresh egg types,
    answer_echo (typed_glyphs keys) value]

/-- `00-2×3`: the zeros give way to the minus, and the value is the same. -/
theorem equal_of_typed_difference :
    (∀ k ∈ [Key.digit 0, .digit 0, .mark .subtract, .digit 2, .mark .multiply, .digit 3],
      Types k) ∧
    evaluate ['0', '0', '-', '2', '×', '3'] = .ok (-6.0) ∧
    ((fresh []).run [.digit 0, .digit 0, .mark .subtract, .digit 2, .mark .multiply, .digit 3,
      .equal]).toFace = ⟨['-', '6'], .idle⟩ := by
  have types : ∀ k ∈ [Key.digit 0, .digit 0, .mark .subtract, .digit 2, .mark .multiply,
      .digit 3], Types k := by
    simp [Types, Key.glyph?]
  have value : evaluate (glyphs [Key.digit 0, .digit 0, .mark .subtract, .digit 2,
      .mark .multiply, .digit 3]) = .ok (-6.0) := by
    decide
  have text : Result.format (-6.0) = ['-', '6'] := by decide
  refine ⟨types, value, ?_⟩
  rw [← text]
  exact equal_of_typed [] types value

/-- **`=` does not show the value of every typed expression**: `0+5` loses its zero. -/
theorem equal_may_need_zero :
    ¬ ∀ egg keys v, (∀ k ∈ keys, Types k) → evaluate (glyphs keys) = .ok v →
      ((fresh egg).run (keys ++ [.equal])).toFace = ⟨Result.format v, .idle⟩ := by
  intro always
  have value : evaluate (glyphs [.digit 0, .mark .add, .digit 5]) = .ok 5.0 := by decide
  have shown := always [] [.digit 0, .mark .add, .digit 5] 5.0 (by simp [Types, Key.glyph?]) value
  revert shown
  decide

end Calculator

end HeartKeypad
