import HeartKeypad.Proofs.Expression.Readers
import HeartKeypad.Proofs.Expression.Viable

/-!
# Bare numbers

A bare text holds digits and points, behind at most one minus.  Two readers take it up.
`Result.read?` counts the digits and the points of the whole text and turns the sign of what it
has read; `Expression.evaluate` cuts the text into tokens, multiplies by `-1`, and tests in the
end whether the value is finite.

* `Result.Bare` — the texts in question, which need not be numbers.
* `Expression.evaluate_bare` — what evaluation makes of such a text, faults included.
* `Result.readers_agree` — both readers accept the same bare texts, with the same doubles; a plus
  in front is accepted by the first alone; and no other text is read as a number.
* `Expression.evaluate_hundredth` — a bare number in front of `÷100`.

### Why the sign is a parameter

The minus belongs to the reader in one case and is a token in the other.  `Written.sign minus` is
its text either way, so that each reader has one equation for both signs
(`Result.read?_sign_append`, `Expression.evaluate_bare`).
-/

namespace HeartKeypad

open Numeral (Numerals)
open Written (sign)

/-! ### Signs -/

namespace Chain

/-- Multiplying by `-1` turns the sign. -/
theorem signed_eq (minus : Bool) (x : Float) : signed minus x = if minus then -x else x := by
  rw [signed, Double.neg_one_mul_eq]

theorem isFinite_signed (minus : Bool) (x : Float) :
    (signed minus x).isFinite = x.isFinite := by
  cases minus with
  | false => rfl
  | true => exact (Double.mirror_neg_one_mul x).isFinite

end Chain

/-! ### Read as a number -/

namespace Result

/-- **A bare text**: digits and points, behind at most one minus. -/
inductive Bare : Text → Prop
  | signed (minus : Bool) {body : Text} : Numerals body → Bare (sign minus ++ body)

variable {s body : Text} {v : Float}

/-- **What a literal behind a sign is read as**: its double with that sign, if it is finite. -/
theorem readBare?_eq_some_iff {minus : Bool} : readBare? minus body = some v ↔
    ∃ x, Numeral.read? body = some x ∧ EvalFault.finite (Chain.signed minus x) = .ok v := by
  unfold readBare?
  cases Numeral.read? body with
  | none => simp
  | some x =>
      simp only [Option.some.injEq, exists_eq_left', EvalFault.finite, Chain.isFinite_signed,
        ← Chain.signed_eq]
      by_cases finite : x.isFinite = true
      · simp [finite]
      · simp [finite]

theorem numerals_of_readBare? {minus : Bool} (h : readBare? minus body = some v) :
    Numerals body := by
  obtain ⟨y, literal, -, -⟩ := exists_literal_of_readBare? h
  exact literal.numeral

/-- **Only a bare text is read**, or one with a plus in front. -/
theorem bare_or_plus_of_read? (h : read? s = some v) : Bare s ∨ ∃ body, s = '+' :: body := by
  rcases read?_cases h with ⟨minus, body, rfl, bare⟩ | ⟨body, rfl, -⟩
  · exact Or.inl (Bare.signed minus (numerals_of_readBare? bare))
  · exact Or.inr ⟨body, rfl⟩

end Result

/-! ### Read as an expression -/

/-- Digits and points are one run. -/
theorem Lexeme.ofText_numerals {body : Text} (nonempty : body ≠ []) (h : Numerals body) :
    ofText body = [.numeral body] := by
  simpa using ofText_run_append nonempty h Text.endsRun_nil

/-- **The tokens of a bare text**: a sign and a number, unless its run is malformed. -/
theorem Token.ofText_bare (minus : Bool) {body : Text} (nonempty : body ≠ [])
    (h : Numerals body) : ofText (sign minus ++ body) =
      match Numeral.read? body with
      | some x => .ok (Chain.signTokens minus ++ [.number x])
      | none => .error (.malformed body) := by
  have run := Lexeme.ofText_numerals nonempty h
  have lexemes : Lexeme.ofText ('-' :: body) = [.glyph '-' .subtract, .numeral body] := by
    rw [Lexeme.ofText_cons_other (by decide), run, Lexeme.ofChar_of_isGlyph .hyphen]
  cases minus with
  | false =>
      show ofLexemes 0 (Lexeme.ofText body) = _
      rw [run]
      simp only [ofLexemes]
      cases Numeral.read? body <;> rfl
  | true =>
      show ofLexemes 0 (Lexeme.ofText ('-' :: body)) = _
      rw [lexemes]
      simp only [ofLexemes]
      cases Numeral.read? body <;> rfl

namespace Expression

/-- **What evaluation makes of a bare text.** -/
theorem evaluate_bare (minus : Bool) {body : Text} (nonempty : body ≠ []) (h : Numerals body) :
    evaluate (sign minus ++ body) =
      match Numeral.read? body with
      | some x => EvalFault.finite (Chain.signed minus x)
      | none => .error (.parse (.malformed body)) := by
  have tokens := Token.ofText_bare minus nonempty h
  cases read : Numeral.read? body with
  | some x =>
      rw [read] at tokens
      have parsed : parse (sign minus ++ body) = .ok ⟨Chain.signed minus x, []⟩ := by
        rw [parse, tokens]
        cases minus with
        | false => rfl
        | true => rfl
      rw [evaluate, parsed]
      rfl
  | none =>
      rw [read] at tokens
      exact evaluate_of_error (by rw [parse, tokens]; rfl)

/-- A sign alone has no value, and neither has nothing. -/
theorem evaluate_sign_ne_ok (minus : Bool) (v : Float) : evaluate (sign minus) ≠ .ok v := by
  cases minus with
  | false =>
      have fault : evaluate (sign false) = .error (.parse .empty) := rfl
      simp [fault]
  | true =>
      have fault : evaluate (sign true) = .error (.parse (.missingOperand 1)) := rfl
      simp [fault]

/-- **An operand is missing in front of a plus.** -/
theorem evaluate_plus {body : Text} {ts : List Token} (h : Token.Spelled body ts) :
    evaluate ('+' :: body) = .error (.parse (.missingOperand 0)) := by
  refine evaluate_of_error ?_
  rw [parse_of_spelled (.glyph .plus h)]
  rfl

end Expression

/-! ### Both readers -/

namespace Result

open Expression (evaluate)

variable {s : Text} {v : Float}

/-- **Both readers accept the same bare texts**, and find the same doubles on them. -/
theorem Bare.read?_eq_some_iff (h : Bare s) : read? s = some v ↔ evaluate s = .ok v := by
  obtain ⟨minus, numerals⟩ := h
  rename_i body
  rw [read?_sign_append minus numerals, readBare?_eq_some_iff]
  rcases eq_or_ne body [] with rfl | nonempty
  · have none : Numeral.read? [] = none := rfl
    simp [none, Expression.evaluate_sign_ne_ok]
  · rw [Expression.evaluate_bare minus nonempty numerals]
    cases Numeral.read? body with
    | none => simp
    | some x => simp

/-- A plus in front does not change what is read, and there is one at most. -/
theorem read?_behind_plus {body : Text} (h : read? ('+' :: body) = some v) :
    read? body = some v ∧ ∀ r, body ≠ '+' :: r := by
  have numerals : Numerals body := numerals_of_readBare? h
  refine ⟨?_, ?_⟩
  · exact (read?_sign_append false numerals).trans h
  · rintro r rfl
    cases numerals '+' List.mem_cons_self

/-- A number with a plus in front is no expression. -/
theorem evaluate_of_read?_plus {body : Text} (h : read? ('+' :: body) = some v) :
    evaluate ('+' :: body) = .error (.parse (.missingOperand 0)) := by
  obtain ⟨x, literal, -, -⟩ := exists_literal_of_readBare? h
  have spelled := Token.Spelled.literal literal Text.endsRun_nil .nil
  rw [List.append_nil] at spelled
  exact Expression.evaluate_plus spelled

/-- **The two readers agree.**  On a bare text, well formed or not, one finds a double iff the
other does, and the same one.  What is read as a number behind a plus is refused as an
expression, for the operand that is missing in front of the plus.  No other text is read as a
number. -/
theorem readers_agree (s : Text) :
    (Bare s → ∀ v, read? s = some v ↔ evaluate s = .ok v) ∧
    (∀ body, s = '+' :: body → read? s ≠ none →
      evaluate s = .error (.parse (.missingOperand 0))) ∧
    (¬ Bare s → (∀ body, s ≠ '+' :: body) → read? s = none) := by
  refine ⟨fun bare v => bare.read?_eq_some_iff, ?_, ?_⟩
  · rintro body rfl read
    obtain ⟨v, hv⟩ := Option.ne_none_iff_exists'.1 read
    exact evaluate_of_read?_plus hv
  · intro bare plus
    cases read : read? s with
    | none => rfl
    | some v =>
        rcases bare_or_plus_of_read? read with isBare | ⟨body, isPlus⟩
        · exact absurd isBare bare
        · exact absurd isPlus (plus body)

/-- `-7.` is minus seven for both, `+7` is a number for one of them, and `7+` for none. -/
theorem readers_agree_on_sevens :
    (Bare ['-', '7', '.'] ∧ read? ['-', '7', '.'] = some (-7.0) ∧
      evaluate ['-', '7', '.'] = .ok (-7.0)) ∧
    (read? ['+', '7'] ≠ none ∧
      evaluate ['+', '7'] = .error (.parse (.missingOperand 0))) ∧
    (¬ Bare ['7', '+'] ∧ read? ['7', '+'] = none) := by
  have seven : Numerals ['7', '.'] := by simp [Numerals, Numeral.isNumeral, Numeral.isDigit]
  have bare : Bare ['-', '7', '.'] := Bare.signed true seven
  have read : read? ['-', '7', '.'] = some (-7.0) := by decide +kernel
  have plus : read? ['+', '7'] ≠ none := by decide +kernel
  have other : ¬ Bare ['7', '+'] := by
    intro h
    generalize text : ['7', '+'] = s at h
    obtain ⟨minus, numerals⟩ := h
    cases minus with
    | true => cases text
    | false =>
        rw [← List.nil_append ['7', '+']] at text
        obtain rfl := List.append_cancel_left text
        cases numerals '+' (by simp)
  exact ⟨⟨bare, read, ((readers_agree _).1 bare _).1 read⟩,
    ⟨plus, (readers_agree _).2.1 _ rfl plus⟩, other, (readers_agree _).2.2 other (by simp)⟩

end Result

/-! ### A hundredth -/

namespace Chain

/-- A chain of two operands with a tight operator between them. -/
theorem value_of_tight {op : Operator} (tight : op.isTight = true) {x y z : Float}
    (h : op.apply x y = .ok z) : (⟨x, [(op, y)]⟩ : Chain).value = .ok z := by
  have finite : z.isFinite = true := (Operator.apply_eq_ok_iff.1 h).2
  exact value_eq_ok_iff.2 ⟨⟨z, []⟩, (products_cons_tight tight).2 ⟨z, h, rfl⟩, rfl, finite⟩

end Chain

namespace Expression

theorem literal_hundred : Numeral.Literal ['1', '0', '0'] 100.0 :=
  Numeral.read?_eq_some_iff.1 (by decide +kernel)

/-- **A bare number in front of `÷100`** has its hundredth as its value. -/
theorem evaluate_hundredth {s : Text} {x : Float} (h : Result.read? s = some x)
    (plus : ∀ body, s ≠ '+' :: body) :
    evaluate (s ++ ['÷', '1', '0', '0']) = .ok (x / 100.0) := by
  have finite : (x / 100.0).isFinite = true :=
    Double.isFinite_div_hundred (Result.isFinite_of_read? h)
  have quotient : Operator.divide.apply x 100.0 = .ok (x / 100.0) :=
    Operator.apply_eq_ok_iff.2 ⟨rfl, finite⟩
  have hundred : Spells ['1', '0', '0'] ⟨100.0, []⟩ :=
    .operand (.plain Text.blanks_nil literal_hundred) Text.blanks_nil
  have spells := Spells.operation (operand_of_read? h plus) Text.blanks_nil .obelus hundred
  rw [List.nil_append] at spells
  rw [evaluate_of_spells spells]
  exact Chain.value_of_tight rfl quotient

end Expression

end HeartKeypad
