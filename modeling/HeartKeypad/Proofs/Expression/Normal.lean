import HeartKeypad.Expression.Value
import HeartKeypad.Proofs.Expression.Spelling

/-!
# Normalized texts

Normalizing a text writes every operator with its ASCII glyph.  Which glyphs there are is laid down
twice, in the table that reads them (`Operator.ofGlyph?`) and in the one that rewrites them
(`Operator.plainGlyph`), and the two agree on every character: a glyph gives way to one of the same
operator, and what is no glyph stays.

* `Operator.asciiGlyph` — the one glyph that a normalized text has for an operator.
* `Lexeme.normal` — a lexeme of a normalized text.
* `Lexeme.ofText_normalize` — the lexemes of a normalized text, one by one those of the text.
* `Expression.normalize_keeps_meaning` — a normalized text has the same tokens and the same value,
  or is refused for the same reason.

### Why positions survive

A position counts the characters in front of it, and a glyph takes the place of a glyph.  So each
lexeme keeps its length, and the scanner arrives at each of them at the same position
(`Token.ofLexemes_map_normal`).  Blanks, runs of digits and points and characters that mean nothing
are the same characters as before, which is why a fault names the same ones.
-/

namespace HeartKeypad

namespace Operator

/-- The glyph that an operator has in ASCII. -/
def asciiGlyph : Operator → Char
  | .add => '+'
  | .subtract => '-'
  | .multiply => '*'
  | .divide => '/'

theorem isGlyph_asciiGlyph (op : Operator) : op.IsGlyph op.asciiGlyph := by
  cases op with
  | add => exact .plus
  | subtract => exact .hyphen
  | multiply => exact .asterisk
  | divide => exact .slash

variable {c : Char} {op : Operator}

/-- A glyph gives way to the ASCII glyph of its operator. -/
theorem IsGlyph.plainGlyph_eq (h : op.IsGlyph c) : plainGlyph c = op.asciiGlyph := by
  cases h <;> rfl

/-- Only glyphs give way. -/
theorem plainGlyph_of_not_isGlyph (h : ∀ op : Operator, ¬ op.IsGlyph c) : plainGlyph c = c := by
  unfold plainGlyph
  split
  · exact absurd .times (h .multiply)
  · exact absurd .letter (h .multiply)
  · exact absurd .obelus (h .divide)
  · exact absurd .minus (h .subtract)
  · rfl

/-- A character is a glyph, and gives way to one of the same operator, or it stays. -/
theorem plainGlyph_cases (c : Char) :
    (∃ op : Operator, op.IsGlyph c ∧ plainGlyph c = op.asciiGlyph) ∨
      (∀ op : Operator, ¬ op.IsGlyph c) ∧ plainGlyph c = c := by
  by_cases glyph : ∃ op : Operator, op.IsGlyph c
  · obtain ⟨op, h⟩ := glyph
    exact Or.inl ⟨op, h, h.plainGlyph_eq⟩
  · have none : ∀ op : Operator, ¬ op.IsGlyph c := fun op h => glyph ⟨op, h⟩
    exact Or.inr ⟨none, plainGlyph_of_not_isGlyph none⟩

/-- What has been rewritten is not rewritten again. -/
theorem plainGlyph_plainGlyph (c : Char) : plainGlyph (plainGlyph c) = plainGlyph c := by
  rcases plainGlyph_cases c with ⟨op, -, plain⟩ | ⟨-, plain⟩
  · rw [plain, (isGlyph_asciiGlyph op).plainGlyph_eq]
  · rw [plain, plain]

/-- No digit or point is a glyph. -/
theorem plainGlyph_of_isNumeral (h : Numeral.isNumeral c = true) : plainGlyph c = c := by
  refine plainGlyph_of_not_isGlyph fun op glyph => ?_
  rw [glyph.isNumeral] at h
  cases h

theorem isNumeral_plainGlyph (c : Char) :
    Numeral.isNumeral (plainGlyph c) = Numeral.isNumeral c := by
  rcases plainGlyph_cases c with ⟨op, glyph, plain⟩ | ⟨-, plain⟩
  · rw [plain, (isGlyph_asciiGlyph op).isNumeral, glyph.isNumeral]
  · rw [plain]

/-- The glyphs of a normalized text are those of ASCII. -/
theorem IsGlyph.eq_asciiGlyph (h : op.IsGlyph (plainGlyph c)) : plainGlyph c = op.asciiGlyph := by
  rw [← h.plainGlyph_eq, plainGlyph_plainGlyph]

end Operator

/-! ### Lexemes -/

namespace Lexeme

open Expression (normalize)

/-- **The lexeme of a normalized text** that stands where a lexeme stood. -/
def normal : Lexeme → Lexeme
  | .glyph _ op => .glyph op.asciiGlyph op
  | l => l

theorem ofChar_plainGlyph (c : Char) : ofChar (Operator.plainGlyph c) = (ofChar c).normal := by
  rcases Operator.plainGlyph_cases c with ⟨op, glyph, plain⟩ | ⟨none, plain⟩
  · rw [plain, ofChar_of_isGlyph (Operator.isGlyph_asciiGlyph op), ofChar_of_isGlyph glyph]
    rfl
  · rw [plain]
    unfold ofChar
    split
    · rfl
    · split
      · rename_i op glyph
        exact absurd (Operator.ofGlyph?_eq_some_iff.1 glyph) (none op)
      · rfl

/-- A digit or point joins the same run. -/
theorem consNumeral_map_normal (c : Char) (ls : List Lexeme) :
    consNumeral c (ls.map normal) = (consNumeral c ls).map normal := by
  cases ls with
  | nil => rfl
  | cons l ls => cases l <;> rfl

/-- **Normalizing a text normalizes its lexemes**, and cuts it at the same places. -/
theorem ofText_normalize (s : Text) : ofText (normalize s) = (ofText s).map normal := by
  induction s with
  | nil => rfl
  | cons c s ih =>
      show ofText (Operator.plainGlyph c :: normalize s) = _
      cases hc : Numeral.isNumeral c with
      | true =>
          rw [Operator.plainGlyph_of_isNumeral hc, ofText_cons_numeral hc, ofText_cons_numeral hc,
            ih, consNumeral_map_normal]
      | false =>
          have other : Numeral.isNumeral (Operator.plainGlyph c) = false := by
            rw [Operator.isNumeral_plainGlyph, hc]
          rw [ofText_cons_other other, ofText_cons_other hc, ih, ofChar_plainGlyph, List.map_cons]

end Lexeme

/-- Normal lexemes are read as the lexemes themselves, wherever they start. -/
theorem Token.ofLexemes_map_normal (position : Nat) (ls : List Lexeme) :
    ofLexemes position (ls.map Lexeme.normal) = ofLexemes position ls := by
  induction ls generalizing position with
  | nil => rfl
  | cons l ls ih =>
      cases l with
      | blank c => exact ih _
      | numeral run =>
          show ofLexemes position (.numeral run :: ls.map Lexeme.normal) = _
          rw [ofLexemes, ofLexemes, ih]
      | glyph c op =>
          show ofLexemes position (.glyph op.asciiGlyph op :: ls.map Lexeme.normal) = _
          rw [ofLexemes, ofLexemes, ih]
      | stray c => rfl

/-! ### Texts -/

namespace Expression

theorem tokens_normalize (s : Text) : Token.ofText (normalize s) = Token.ofText s := by
  rw [Token.ofText, Lexeme.ofText_normalize, Token.ofLexemes_map_normal, Token.ofText]

theorem evaluate_of_same_tokens {s t : Text} (same : Token.ofText s = Token.ofText t) :
    evaluate s = evaluate t := by
  have parsed : parse s = parse t := by rw [parse, parse, same]
  rw [evaluate, evaluate, parsed]

theorem normalize_normalize (s : Text) : normalize (normalize s) = normalize s := by
  rw [normalize, normalize, List.map_map]
  exact List.map_congr_left fun c _ => Operator.plainGlyph_plainGlyph c

/-- **Normalizing keeps the meaning of a text.**  Whatever a text holds, normalized it has the same
tokens, or the same lexical fault with the same character, position or literal; it has the same
value, or is refused for the same reason.  Normalizing it once more changes nothing, since every
operator is then written with its ASCII glyph. -/
theorem normalize_keeps_meaning (s : Text) :
    Token.ofText (normalize s) = Token.ofText s ∧ evaluate (normalize s) = evaluate s ∧
      normalize (normalize s) = normalize s ∧
      ∀ c ∈ normalize s, ∀ op : Operator, op.IsGlyph c → c = op.asciiGlyph := by
  refine ⟨tokens_normalize s, evaluate_of_same_tokens (tokens_normalize s),
    normalize_normalize s, fun c mem op glyph => ?_⟩
  obtain ⟨d, -, rfl⟩ := List.mem_map.1 mem
  exact glyph.eq_asciiGlyph

end Expression

end HeartKeypad
