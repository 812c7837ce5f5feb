import HeartKeypad.Proofs.Calculator.EasterEgg
import HeartKeypad.Proofs.Calculator.StickyError

/-!
# Keypad and evaluator share one alphabet

Whatever stands on a display without letters could have been typed, results and signs included,
and every glyph that is typed means something to the evaluator: it is a digit, the point or an
operator, and it is no blank.  So nothing on such a display is unexpected, and it is not empty;
what can still be wrong is how the glyphs are put together.

* `Expression.parse_error_cases` — where each kind of failure comes from.
* `Calculator.not_stray_of_mem_keypadGlyphs` — every glyph of the keypad means something.
* `Calculator.Misspelled` — the faults in how glyphs are put together.
* `Calculator.failing_equal` — why `=` fails on a display without letters.

### Letters

The letters of the error mark mean nothing to the evaluator, so a display that shows what is left
of the mark does hold an unexpected character (`Expression.evaluate_of_stray`).
-/

namespace HeartKeypad

open Expression (evaluate)

/-! ### Failures -/

namespace Expression

open Token (Spelled)

variable {s : Text} {f : ParseFault}

/-- **Where a failure comes from**: the leftmost lexical fault, a text without tokens, or tokens
among which an operand is missing. -/
theorem parse_error_cases (failed : parse s = .error f) :
    Text.Leftmost s f ∨ (f = .empty ∧ Spelled s []) ∨ ∃ n, f = .missingOperand n := by
  rw [parse] at failed
  cases scan : Token.ofText s with
  | error g =>
      rw [scan] at failed
      cases failed
      exact Or.inl (Text.ofText_eq_error_iff.1 scan)
  | ok ts =>
      rw [scan] at failed
      change Chain.ofTokens ts = .error f at failed
      cases ts with
      | nil =>
          cases failed
          exact Or.inr (Or.inl ⟨rfl, Token.ofText_eq_ok_iff.1 scan⟩)
      | cons t ts =>
          obtain ⟨n, missing, -⟩ := Chain.longest_of_error failed
          exact Or.inr (Or.inr ⟨_, missing⟩)

end Expression

namespace Text

/-- A leftmost fault is a character that means nothing, or a run that is no number. -/
theorem Leftmost.cases {s : Text} {f : ParseFault} (h : Leftmost s f) :
    (∃ c i, f = .unexpected c i ∧ c ∈ s ∧ Stray c) ∨ ∃ run, f = .malformed run := by
  obtain ⟨i, fault, -⟩ := h
  rw [FaultAt] at fault
  generalize behind : s.drop i = t at fault
  cases fault with
  | @stray c rest stray =>
      refine Or.inl ⟨c, _, rfl, List.mem_of_mem_drop (i := i) ?_, stray⟩
      rw [behind]
      exact List.mem_cons_self
  | malformed _ _ => exact Or.inr ⟨_, rfl⟩

end Text

namespace Calculator

/-! ### Glyphs -/

/-- **Every glyph of the keypad means something**: it is a digit, the point or an operator's. -/
theorem not_stray_of_mem_keypadGlyphs {c : Char} (h : c ∈ keypadGlyphs) : ¬ Text.Stray c := by
  have known : keypadGlyphs.all
      (fun c => Numeral.isNumeral c || (Operator.ofGlyph? c).isSome) = true := by decide
  intro stray
  rcases Bool.or_eq_true_iff.1 (List.all_eq_true.1 known c h) with numeral | glyph
  · rw [stray.not_numeral] at numeral
    cases numeral
  · obtain ⟨op, found⟩ := Option.isSome_iff_exists.1 glyph
    exact stray.not_glyph op (Operator.ofGlyph?_eq_some_iff.1 found)

/-! ### Displays without letters -/

/-- A display without letters could have been typed: what is left of the error mark starts with
one. -/
theorem IsDisplay.typed_of_not_lettered {s : Text} (h : IsDisplay s) (plain : ¬ Lettered s) :
    Typed s := by
  have marked {mark rest : Text} (remnant : Remnant mark) : Lettered (mark ++ rest) := by
    obtain ⟨r, rfl⟩ := remnant.eq_cons
    exact ⟨'E', by simp, by decide⟩
  cases h with
  | typed typed => exact typed
  | marked remnant _ => exact absurd (marked remnant) plain
  | negated remnant _ =>
      obtain ⟨c, among, letter⟩ := marked remnant
      exact absurd ⟨c, List.mem_cons_of_mem _ among, letter⟩ plain

/-! ### What can be wrong with what is typed -/

/-- **Faults in how the glyphs are put together**: a run of digits and points that is no number,
an operator without an operand, or a result that is not finite. -/
inductive Misspelled : EvalFault → Prop
  | malformed (run : Text) : Misspelled (.parse (.malformed run))
  | missingOperand (n : Nat) : Misspelled (.parse (.missingOperand n))
  | nonFinite : Misspelled .nonFinite

namespace Typed

variable {s : Text}

/-- Nothing that is typed is unexpected, and something that is typed has tokens. -/
theorem misspelled_of_parse {f : ParseFault} (h : Typed s) (nonempty : s ≠ [])
    (failed : Expression.parse s = .error f) : Misspelled (.parse f) := by
  rcases Expression.parse_error_cases failed with leftmost | ⟨-, spelled⟩ | ⟨n, rfl⟩
  · rcases leftmost.cases with ⟨c, i, -, among, stray⟩ | ⟨run, rfl⟩
    · exact absurd stray (not_stray_of_mem_keypadGlyphs (h c among))
    · exact .malformed run
  · -- a text without tokens is blank, and the first glyph is not
    obtain ⟨c, rest, rfl⟩ := List.exists_cons_of_ne_nil nonempty
    have blank := spelled.blanks c List.mem_cons_self
    rw [h.unbroken c List.mem_cons_self] at blank
    cases blank
  · exact .missingOperand n

/-- **What is typed fails** only for how it is put together. -/
theorem misspelled {fault : EvalFault} (h : Typed s) (nonempty : s ≠ [])
    (failed : evaluate s = .error fault) : Misspelled fault := by
  rw [Expression.evaluate] at failed
  cases parsed : Expression.parse s with
  | error f =>
      rw [parsed] at failed
      cases failed
      exact h.misspelled_of_parse nonempty parsed
  | ok chain =>
      rw [parsed] at failed
      change chain.value = .error fault at failed
      rcases Expression.value_eq_ok_or_nonFinite chain with ⟨x, value⟩ | overflow
      · rw [value] at failed
        cases failed
      · rw [overflow] at failed
        cases failed
        exact .nonFinite

end Typed

/-! ### The failing `=` -/

/-- What `=` shows, on any display. -/
theorem display_pressEqual (c : Calculator) : c.pressEqual.display = answer c.display :=
  congrArg Face.display (toFace_pressEqual c)

/-- **Why `=` fails on a display without letters.**  Whatever egg was chosen and whatever keys
were pressed, as long as no letter is on the display: none of its characters is unexpected, it is
not empty, and `=` puts the error mark on it iff it fails for a malformed number, a missing
operand or a result that is not finite. -/
theorem failing_equal (egg : Text) {keys : List Key}
    (plain : ¬ Lettered ((fresh egg).run keys).display) :
    (∀ c i, evaluate ((fresh egg).run keys).display ≠ .error (.parse (.unexpected c i))) ∧
    evaluate ((fresh egg).run keys).display ≠ .error (.parse .empty) ∧
    (((fresh egg).run (keys ++ [.equal])).display = errorMark ↔
      (∃ run, evaluate ((fresh egg).run keys).display = .error (.parse (.malformed run))) ∨
      (∃ n, evaluate ((fresh egg).run keys).display = .error (.parse (.missingOperand n))) ∨
      evaluate ((fresh egg).run keys).display = .error .nonFinite) := by
  have legible : Legible ((fresh egg).run keys) := (legible_zero egg).run keys
  have typed : Typed ((fresh egg).run keys).display :=
    legible.isDisplay.typed_of_not_lettered plain
  have last : ((fresh egg).run (keys ++ [.equal])).display =
      answer ((fresh egg).run keys).display := by
    rw [run_concat]
    exact display_pressEqual _
  have known {fault : EvalFault}
      (failed : evaluate ((fresh egg).run keys).display = .error fault) : Misspelled fault :=
    typed.misspelled legible.ne_nil failed
  refine ⟨fun c i failed => ?_, fun failed => ?_, ?_⟩
  · cases known failed
  · cases known failed
  · rw [last, answer_eq_iff]
    constructor
    · rintro (⟨result, -⟩ | ⟨-, fault, failed⟩)
      · exact absurd rfl result
      · cases known failed with
        | malformed run => exact Or.inl ⟨run, failed⟩
        | missingOperand n => exact Or.inr (Or.inl ⟨n, failed⟩)
        | nonFinite => exact Or.inr (Or.inr failed)
    · rintro (⟨run, failed⟩ | ⟨n, failed⟩ | failed)
      all_goals exact Or.inr ⟨rfl, _, failed⟩

/-- `8%` shows `0.08`; a plus and a sign put `-0.08+` on the display, which ends in an operator. -/
theorem failing_equal_behind_percent :
    ((fresh []).run [.digit 8, .percent, .mark .add, .negate]).display =
        ['-', '0', '.', '0', '8', '+'] ∧
      ((fresh []).run [.digit 8, .percent, .mark .add, .negate, .equal]).display = errorMark := by
  have shown : ((fresh []).run [.digit 8, .percent, .mark .add, .negate]).display =
      ['-', '0', '.', '0', '8', '+'] := by decide
  have plain : ¬ Lettered ((fresh []).run [.digit 8, .percent, .mark .add, .negate]).display := by
    rw [shown]
    simp [Lettered]
  have missing : evaluate ((fresh []).run [.digit 8, .percent, .mark .add, .negate]).display =
      .error (.parse (.missingOperand 3)) := by
    rw [shown]
    decide
  exact ⟨shown, (failing_equal [] plain).2.2.2 (Or.inr (Or.inl ⟨3, missing⟩))⟩

end Calculator

end HeartKeypad
