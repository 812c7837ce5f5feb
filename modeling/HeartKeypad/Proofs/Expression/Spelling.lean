import HeartKeypad.Expression.Token
import HeartKeypad.Proofs.Number.Literal

/-!
# The spelling of tokens

Which texts spell which tokens, said without the scanner.  `Token.Spelled s ts`
derives the tokens `ts` from the text `s` rule by rule: blanks mean nothing, a
glyph is an operator, and a literal is a number where no digit or point follows.

* `Operator.IsGlyph` — the glyphs that operators are written with.
* `Lexeme.Cut` — the cuts of a text into maximal runs and single characters;
  every text has exactly one (`Lexeme.ofText_eq_iff_cut`).
* `Token.ofText_eq_ok_iff` — the tokens of a text are those that it spells.

### Why literals carry a boundary

Two literals next to each other would read as one.  The grammar forbids this by
the condition `Text.EndsRun` on what follows a literal, and the scanner by taking
runs as long as possible.  `Lexeme.Cut` carries the same condition, so the two
meet case by case.
-/

namespace HeartKeypad

namespace Text

/-- The text holds nothing but blanks. -/
def Blanks (s : Text) : Prop := ∀ c ∈ s, isBlank c = true

/-- A run of digits and points cannot go on into the text. -/
def EndsRun : Text → Prop
  | [] => True
  | c :: _ => Numeral.isNumeral c = false

@[simp] theorem blanks_nil : Blanks [] := by simp [Blanks]

@[simp] theorem endsRun_nil : EndsRun [] := trivial

theorem endsRun_cons {c : Char} {s : Text} :
    EndsRun (c :: s) ↔ Numeral.isNumeral c = false := Iff.rfl

/-- No blank is a digit or a point. -/
theorem isNumeral_eq_false_of_isBlank {c : Char} (h : isBlank c = true) :
    Numeral.isNumeral c = false := by
  have point : '.'.toNat = 46 := rfl
  have notPoint : c ≠ '.' := by
    rintro rfl
    revert h
    decide
  -- the ranges of blanks, written out, lie apart from that of the digits
  simp only [isBlank, blankRanges, List.any_cons, List.any_nil, Bool.or_false,
    Bool.or_eq_true, Bool.and_eq_true, decide_eq_true_eq] at h
  simp only [Numeral.isNumeral, Numeral.isDigit, Bool.or_eq_false_iff,
    Bool.and_eq_false_iff, decide_eq_false_iff_not, beq_eq_false_iff_ne]
  exact ⟨by omega, notPoint⟩

theorem Blanks.endsRun_append {w s : Text} (hw : Blanks w) (hs : EndsRun s) :
    EndsRun (w ++ s) := by
  cases w with
  | nil => exact hs
  | cons c w => exact isNumeral_eq_false_of_isBlank (hw c (by simp))

end Text

/-! ### Glyphs -/

namespace Operator

/-- **The glyphs** that operators are written with. -/
inductive IsGlyph : Operator → Char → Prop
  | plus : IsGlyph .add '+'
  | hyphen : IsGlyph .subtract '-'
  | minus : IsGlyph .subtract '−'
  | asterisk : IsGlyph .multiply '*'
  | times : IsGlyph .multiply '×'
  | letter : IsGlyph .multiply 'x'
  | slash : IsGlyph .divide '/'
  | obelus : IsGlyph .divide '÷'

theorem ofGlyph?_eq_some_iff {c : Char} {op : Operator} :
    ofGlyph? c = some op ↔ IsGlyph op c := by
  constructor
  · intro h
    unfold ofGlyph? at h
    split at h <;> cases h <;> constructor
  · intro h
    cases h <;> rfl

theorem IsGlyph.isNumeral {op : Operator} {c : Char} (h : IsGlyph op c) :
    Numeral.isNumeral c = false := by
  cases h <;> decide

theorem IsGlyph.isBlank {op : Operator} {c : Char} (h : IsGlyph op c) :
    Text.isBlank c = false := by
  cases h <;> decide

end Operator

/-! ### The cut of a text -/

namespace Lexeme

/-- **The cuts of a text**: characters that belong to no run stand alone, and a run of
digits and points ends only where it cannot go on. -/
inductive Cut : Text → List Lexeme → Prop
  | nil : Cut [] []
  | single {c : Char} {s : Text} {ls : List Lexeme} : Numeral.isNumeral c = false →
      Cut s ls → Cut (c :: s) (ofChar c :: ls)
  | run {r s : Text} {ls : List Lexeme} : r ≠ [] → (∀ c ∈ r, Numeral.isNumeral c = true) →
      Text.EndsRun s → Cut s ls → Cut (r ++ s) (.numeral r :: ls)

theorem ofChar_of_isBlank {c : Char} (h : Text.isBlank c = true) : ofChar c = .blank c := by
  simp [ofChar, h]

theorem ofChar_of_isGlyph {c : Char} {op : Operator} (h : op.IsGlyph c) :
    ofChar c = .glyph c op := by
  simp [ofChar, h.isBlank, Operator.ofGlyph?_eq_some_iff.2 h]

/-- A character on its own is no run. -/
theorem ofChar_ne_numeral (c : Char) (r : Text) : ofChar c ≠ .numeral r := by
  unfold ofChar
  split
  · simp
  · split <;> simp

/-- The front of a cut tells whether a run could go on into the text. -/
theorem Cut.endsRun {s : Text} {ls : List Lexeme} (h : Cut s ls)
    (front : ∀ r rest, ls ≠ .numeral r :: rest) : Text.EndsRun s := by
  cases h with
  | nil => trivial
  | single hc _ => exact hc
  | run _ _ _ _ => exact absurd rfl (front _ _)

/-- A cut whose first lexeme is a run starts with that run, which cannot go on. -/
theorem Cut.run_inv {s r : Text} {ls : List Lexeme} (h : Cut s (.numeral r :: ls)) :
    ∃ t, s = r ++ t ∧ (∀ c ∈ r, Numeral.isNumeral c = true) ∧ Text.EndsRun t ∧ Cut t ls := by
  generalize hus : Lexeme.numeral r :: ls = us at h
  cases h with
  | nil => cases hus
  | single _ _ => exact absurd (List.cons.inj hus).1.symm (ofChar_ne_numeral _ _)
  | run _ hr ends tail =>
      cases hus
      exact ⟨_, rfl, hr, ends, tail⟩

/-- The scanner cuts the text. -/
theorem cut_ofText (s : Text) : Cut s (ofText s) := by
  induction s with
  | nil => exact .nil
  | cons c s ih =>
      cases hc : Numeral.isNumeral c with
      | false =>
          rw [ofText_cons_other hc]
          exact .single hc ih
      | true =>
          rw [ofText_cons_numeral hc]
          unfold consNumeral
          split
          · -- the numeral joins the run in front
            rename_i r ls front
            rw [front] at ih
            obtain ⟨t, rfl, hr, ends, tail⟩ := ih.run_inv
            rw [← List.cons_append]
            exact .run (by simp) (by simpa [hc] using hr) ends tail
          · -- it starts a run, which cannot go on
            rename_i front
            have ends := ih.endsRun fun r rest h => front r rest h
            exact .run (r := [c]) (by simp) (by simpa using hc) ends ih

/-- In front of a text that ends runs, a run stays whole. -/
theorem ofText_run_append {r s : Text} (hne : r ≠ [])
    (hr : ∀ c ∈ r, Numeral.isNumeral c = true) (ends : Text.EndsRun s) :
    ofText (r ++ s) = .numeral r :: ofText s := by
  induction r with
  | nil => exact absurd rfl hne
  | cons c r ih =>
      rw [List.cons_append, ofText_cons_numeral (hr c (by simp))]
      cases r with
      | cons d r =>
          rw [ih (by simp) fun e he => hr e (List.mem_cons_of_mem _ he)]
          rfl
      | nil =>
          cases s with
          | nil => rfl
          | cons d s =>
              rw [List.nil_append, ofText_cons_other (Text.endsRun_cons.1 ends)]
              unfold consNumeral
              split
              · rename_i front
                exact absurd (List.cons.inj front).1 (ofChar_ne_numeral _ _)
              · rfl

/-- **A text has one cut**, which is the scanner's. -/
theorem ofText_eq_iff_cut {s : Text} {ls : List Lexeme} : ofText s = ls ↔ Cut s ls := by
  constructor
  · rintro rfl
    exact cut_ofText s
  · intro h
    induction h with
    | nil => rfl
    | single hc _ ih => rw [ofText_cons_other hc, ih]
    | run hne hr ends _ ih => rw [ofText_run_append hne hr ends, ih]

end Lexeme

/-! ### Tokens -/

namespace Token

/-- **The tokens that a text spells.** -/
inductive Spelled : Text → List Token → Prop
  | nil : Spelled [] []
  | blank {c : Char} {s : Text} {ts : List Token} : Text.isBlank c = true →
      Spelled s ts → Spelled (c :: s) ts
  | glyph {c : Char} {op : Operator} {s : Text} {ts : List Token} : op.IsGlyph c →
      Spelled s ts → Spelled (c :: s) (.operator op :: ts)
  | literal {run s : Text} {x : Float} {ts : List Token} : Numeral.Literal run x →
      Text.EndsRun s → Spelled s ts → Spelled (run ++ s) (.number x :: ts)

/-- What is spelled is read, wherever the text stands. -/
theorem Spelled.ofLexemes {s : Text} {ts : List Token} (h : Spelled s ts) :
    ∀ position, Token.ofLexemes position (Lexeme.ofText s) = .ok ts := by
  induction h with
  | nil => intro position; rfl
  | blank hc _ ih =>
      intro position
      rw [Lexeme.ofText_cons_other (Text.isNumeral_eq_false_of_isBlank hc),
        Lexeme.ofChar_of_isBlank hc]
      exact ih _
  | glyph hc _ ih =>
      intro position
      rw [Lexeme.ofText_cons_other hc.isNumeral, Lexeme.ofChar_of_isGlyph hc,
        Token.ofLexemes, ih]
      rfl
  | literal hl ends _ ih =>
      intro position
      rw [Lexeme.ofText_run_append hl.ne_nil hl.numeral ends, Token.ofLexemes]
      simp only [Numeral.read?_eq_some_iff.2 hl, ih]
      rfl

/-- What is read is spelled. -/
theorem spelled_of_cut {s : Text} {ls : List Lexeme} (cut : Lexeme.Cut s ls) :
    ∀ {position : Nat} {ts : List Token}, ofLexemes position ls = .ok ts → Spelled s ts := by
  induction cut with
  | nil =>
      intro position ts h
      cases h
      exact .nil
  | @single c s ls hc _ ih =>
      intro position ts h
      cases hb : Text.isBlank c with
      | true =>
          rw [Lexeme.ofChar_of_isBlank hb] at h
          exact .blank hb (ih h)
      | false =>
          cases hg : Operator.ofGlyph? c with
          | none =>
              -- a stray character has no token
              rw [Lexeme.ofChar, hb, hg] at h
              cases h
          | some op =>
              have glyph := Operator.ofGlyph?_eq_some_iff.1 hg
              rw [Lexeme.ofChar_of_isGlyph glyph, ofLexemes] at h
              cases rest : ofLexemes (position + 1) ls with
              | error e => rw [rest] at h; cases h
              | ok us =>
                  rw [rest] at h
                  cases h
                  exact .glyph glyph (ih rest)
  | @run r s ls hne hr ends _ ih =>
      intro position ts h
      rw [ofLexemes] at h
      split at h
      · rename_i x hx
        cases rest : ofLexemes (position + r.length) ls with
        | error e => rw [rest] at h; cases h
        | ok us =>
            rw [rest] at h
            cases h
            exact .literal (Numeral.read?_eq_some_iff.1 hx) ends (ih rest)
      · cases h

/-- **Scanning yields the tokens that a text spells**, and fails on a text that spells
none. -/
theorem ofText_eq_ok_iff {s : Text} {ts : List Token} : ofText s = .ok ts ↔ Spelled s ts :=
  ⟨fun h => spelled_of_cut (Lexeme.cut_ofText s) h, fun h => h.ofLexemes 0⟩

theorem Spelled.blanks_append {w s : Text} {ts : List Token} (hw : Text.Blanks w)
    (h : Spelled s ts) : Spelled (w ++ s) ts := by
  induction w with
  | nil => exact h
  | cons c w ih =>
      exact .blank (hw c (by simp)) (ih fun d hd => hw d (List.mem_cons_of_mem _ hd))

/-- A text without tokens is blank. -/
theorem Spelled.blanks {s : Text} (h : Spelled s []) : Text.Blanks s := by
  generalize hts : ([] : List Token) = ts at h
  induction h with
  | nil => simp
  | blank hc _ ih =>
      intro c hmem
      rcases List.mem_cons.1 hmem with rfl | hmem
      · exact hc
      · exact ih hts c hmem
  | glyph => cases hts
  | literal => cases hts

/-- A text whose first token is an operator starts with its glyph behind blanks. -/
theorem Spelled.operator_inv {s : Text} {op : Operator} {ts : List Token}
    (h : Spelled s (.operator op :: ts)) :
    ∃ w c r, Text.Blanks w ∧ op.IsGlyph c ∧ s = w ++ c :: r ∧ Spelled r ts := by
  generalize hus : Token.operator op :: ts = us at h
  induction h with
  | nil => cases hus
  | @blank c s _ hc _ ih =>
      obtain ⟨w, d, r, hw, hd, rfl, hr⟩ := ih hus
      exact ⟨c :: w, d, r, by simpa [Text.Blanks, hc] using hw, hd, rfl, hr⟩
  | @glyph c op' s _ hc hs _ =>
      cases hus
      exact ⟨[], c, s, by simp, hc, rfl, hs⟩
  | literal => cases hus

/-- A text whose first token is a number starts with its literal behind blanks. -/
theorem Spelled.number_inv {s : Text} {x : Float} {ts : List Token}
    (h : Spelled s (.number x :: ts)) :
    ∃ w run r, Text.Blanks w ∧ Numeral.Literal run x ∧ s = w ++ (run ++ r) ∧ Spelled r ts := by
  generalize hus : Token.number x :: ts = us at h
  induction h with
  | nil => cases hus
  | @blank c s _ hc _ ih =>
      obtain ⟨w, run, r, hw, hrun, rfl, hr⟩ := ih hus
      exact ⟨c :: w, run, r, by simpa [Text.Blanks, hc] using hw, hrun, rfl, hr⟩
  | glyph => cases hus
  | @literal run s y _ hrun _ hs _ =>
      cases hus
      exact ⟨[], run, s, by simp, hrun, rfl, hs⟩

end Token

end HeartKeypad
