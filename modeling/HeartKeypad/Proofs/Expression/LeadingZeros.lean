import HeartKeypad.Proofs.Expression.Grammar
import HeartKeypad.Proofs.Expression.Negated

/-!
# Expressions without their leading zeros

An expression may start with zeros that say nothing: `007` is `7`, and `0.5` is `.5`.
`Text.behindZeros` takes them off a text without blanks.  What is left has the same value,
or is no expression any more.

* `Expression.needsZero` — a text that only a zero in front can make an expression.
* `Expression.evaluate_behindZeros` — all other expressions keep their value, up to the sign
  of a zero.
* `Expression.needsZero_of_derivable` — no expression is such a text.

### What is left of an operand

The zeros all belong to the first literal, so the question is what is left of that
(`Numeral.Literal.behindZeros`): a literal of the same value, or nothing, or a bare point.  A
bare point is always at fault.  Where nothing is left the operator behind the zero comes
first, and only a minus can (`Expression.Spells.behindMinus`), in a chain with another
value: that of the two agree is `Chain.value_zero_subtract`.
-/

namespace HeartKeypad

open Double (Alike)

namespace Text

/-- What is left of a text without the zeros that it starts with. -/
def behindZeros (s : Text) : Text := s.dropWhile (· == '0')

/-- The text holds no blanks. -/
def Unbroken (s : Text) : Prop := ∀ c ∈ s, isBlank c = false

@[simp] theorem behindZeros_nil : behindZeros [] = [] := rfl

@[simp] theorem behindZeros_cons_zero (s : Text) : behindZeros ('0' :: s) = behindZeros s := rfl

@[simp] theorem behindZeros_cons_of_ne {c : Char} (h : c ≠ '0') (s : Text) :
    behindZeros (c :: s) = c :: s := by
  simp [behindZeros, h]

/-- What ends a run does not start with a zero. -/
theorem EndsRun.behindZeros {s : Text} (h : EndsRun s) : s.behindZeros = s := by
  cases s with
  | nil => rfl
  | cons c s =>
      refine behindZeros_cons_of_ne ?_ s
      rintro rfl
      cases endsRun_cons.1 h

theorem behindZeros_append (r : Text) {s : Text} (h : behindZeros s = s) :
    behindZeros (r ++ s) = behindZeros r ++ s := by
  induction r with
  | nil => exact h
  | cons c r ih =>
      by_cases zero : c = '0'
      · rw [zero, List.cons_append, behindZeros_cons_zero, behindZeros_cons_zero, ih]
      · rw [List.cons_append, behindZeros_cons_of_ne zero, behindZeros_cons_of_ne zero,
          List.cons_append]

theorem Unbroken.eq_nil {w : Text} (h : Unbroken w) (blank : Blanks w) : w = [] := by
  cases w with
  | nil => rfl
  | cons c w =>
      have yes := blank c List.mem_cons_self
      rw [h c List.mem_cons_self] at yes
      cases yes

theorem unbroken_append {r s : Text} : Unbroken (r ++ s) ↔ Unbroken r ∧ Unbroken s :=
  List.forall_mem_append

end Text

open Text (Blanks EndsRun Unbroken behindZeros)

/-! ### Literals -/

namespace Numeral

/-- **Leading zeros do not count.** -/
theorem ofParts_behindZeros (ds fs : Text) : ofParts (behindZeros ds) fs = ofParts ds fs := by
  induction ds with
  | nil => rfl
  | cons c ds ih =>
      by_cases zero : c = '0'
      · rw [zero, Text.behindZeros_cons_zero, ih]
        rfl
      · rw [Text.behindZeros_cons_of_ne zero]

theorem Digits.behindZeros {ds : Text} (h : Digits ds) : Digits (behindZeros ds) :=
  fun c hc => h c ((List.dropWhile_suffix _).subset hc)

/-- A literal without its leading zeros is the same literal, unless it was a zero and nothing
but a point is left of it. -/
theorem Literal.behindZeros {run : Text} {x : Float} (h : Literal run x) :
    Literal (behindZeros run) x ∨
      x = ofParts [] [] ∧ (behindZeros run = [] ∨ behindZeros run = ['.']) := by
  have point (fs : Text) : Text.behindZeros ('.' :: fs) = '.' :: fs :=
    Text.behindZeros_cons_of_ne (by decide) fs
  cases h with
  | whole hne hds =>
      rw [← ofParts_behindZeros]
      by_cases gone : Text.behindZeros run = []
      · rw [gone]
        exact Or.inr ⟨rfl, Or.inl rfl⟩
      · exact Or.inl (Literal.whole gone hds.behindZeros)
  | @pointed ds fs hne hds hfs =>
      rw [← ofParts_behindZeros, Text.behindZeros_append ds (point fs)]
      by_cases gone : Text.behindZeros ds = []
      · rw [gone]
        by_cases bare : fs = []
        · rw [bare]
          exact Or.inr ⟨rfl, Or.inr rfl⟩
        · exact Or.inl (Literal.bare bare hfs)
      · exact Or.inl (Literal.pointed gone hds.behindZeros hfs)
  | @bare fs hne hfs =>
      rw [point fs]
      exact Or.inl (Literal.bare hne hfs)

end Numeral

/-! ### Operands -/

namespace Operator

theorem ofGlyph?_eq_none {c : Char} (h : ∀ op, ¬ IsGlyph op c) : ofGlyph? c = none := by
  cases hc : ofGlyph? c with
  | none => rfl
  | some op => exact absurd (ofGlyph?_eq_some_iff.1 hc) (h op)

theorem ofGlyph?_eq_none_of_isNumeral {c : Char} (h : Numeral.isNumeral c = true) :
    ofGlyph? c = none := by
  refine ofGlyph?_eq_none fun op glyph => ?_
  rw [glyph.isNumeral] at h
  cases h

theorem ofGlyph?_eq_none_of_isBlank {c : Char} (h : Text.isBlank c = true) :
    ofGlyph? c = none := by
  refine ofGlyph?_eq_none fun op glyph => ?_
  rw [glyph.isBlank] at h
  cases h

end Operator

namespace Expression

/-- **Only a zero in front can make the text an expression**: it starts with an operator that
is no minus, with two minus signs, or with a point and no digit behind it. -/
def needsZero : Text → Bool
  | [] => false
  | c :: s =>
    match Operator.ofGlyph? c with
    | some .subtract => s.head?.any fun d => Operator.ofGlyph? d == some .subtract
    | some _ => true
    | none => c == '.' && !s.head?.any Numeral.isDigit

@[simp] theorem needsZero_nil : needsZero [] = false := rfl

@[simp] theorem needsZero_point (s : Text) :
    needsZero ('.' :: s) = !s.head?.any Numeral.isDigit := rfl

theorem needsZero_minus {c : Char} (h : Operator.IsGlyph .subtract c) (s : Text) :
    needsZero (c :: s) = s.head?.any fun d => Operator.ofGlyph? d == some .subtract := by
  rw [needsZero, Operator.ofGlyph?_eq_some_iff.2 h]

theorem needsZero_cons {c : Char} (glyph : Operator.ofGlyph? c = none) (point : c ≠ '.')
    (s : Text) : needsZero (c :: s) = false := by
  simp [needsZero, glyph, point]

/-- A text that starts with a blank is at fault for another reason. -/
theorem needsZero_blank {c : Char} (h : Text.isBlank c = true) (s : Text) :
    needsZero (c :: s) = false := by
  refine needsZero_cons (Operator.ofGlyph?_eq_none_of_isBlank h) ?_ s
  rintro rfl
  cases h

theorem needsZero_digit {c : Char} (h : Numeral.isDigit c = true) (s : Text) :
    needsZero (c :: s) = false := by
  refine needsZero_cons
    (Operator.ofGlyph?_eq_none_of_isNumeral (Numeral.isNumeral_of_isDigit h)) ?_ s
  rintro rfl
  cases h

/-- A literal needs no zero in front. -/
theorem needsZero_literal {run : Text} {x : Float} (h : Numeral.Literal run x) (s : Text) :
    needsZero (run ++ s) = false := by
  cases h with
  | whole hne hds =>
      obtain ⟨d, ds, rfl⟩ := List.exists_cons_of_ne_nil hne
      exact needsZero_digit (hds d List.mem_cons_self) _
  | pointed hne hds hfs =>
      obtain ⟨d, ds, rfl⟩ := List.exists_cons_of_ne_nil hne
      exact needsZero_digit (hds d List.mem_cons_self) _
  | bare hne hfs =>
      obtain ⟨f, fs, rfl⟩ := List.exists_cons_of_ne_nil hne
      have digit := hfs f List.mem_cons_self
      simp [digit]

/-- Nor does an operand. -/
theorem needsZero_operand {s : Text} {x : Float} (h : Chain.Operand s x) (r : Text) :
    needsZero (s ++ r) = false := by
  cases h with
  | @plain w run y hw hrun =>
      cases w with
      | cons c w => exact needsZero_blank (hw c List.mem_cons_self) _
      | nil => exact needsZero_literal hrun r
  | @negated w v run c y hw hc hv hrun =>
      cases w with
      | cons d w => exact needsZero_blank (hw d List.mem_cons_self) _
      | nil =>
          -- behind the minus stands a blank or the literal, and no other minus
          obtain ⟨d, t, split, other⟩ : ∃ d t, v ++ run = d :: t ∧ Operator.ofGlyph? d = none := by
            cases v with
            | cons d v =>
                exact ⟨d, v ++ run, rfl,
                  Operator.ofGlyph?_eq_none_of_isBlank (hv d List.mem_cons_self)⟩
            | nil =>
                obtain ⟨d, t, rfl⟩ := List.exists_cons_of_ne_nil hrun.ne_nil
                exact ⟨d, t, rfl,
                  Operator.ofGlyph?_eq_none_of_isNumeral (hrun.numeral d List.mem_cons_self)⟩
          rw [List.nil_append, split, List.cons_append, needsZero_minus hc]
          simp [other]

/-- **No expression needs a zero in front.** -/
theorem needsZero_of_derivable {s : Text} (h : Derivable s) : needsZero s = false := by
  obtain ⟨chain, h⟩ := h
  cases h with
  | operand hs hw => exact needsZero_operand hs _
  | operation hs hw hc rest => exact needsZero_operand hs _

end Expression

/-- An operand in front of a text that ends runs, without its leading zeros: it is the same
operand, unless it was a zero and nothing but a point is left of it. -/
theorem Chain.Operand.behindZeros {s r : Text} {x : Float} (h : Operand s x)
    (ends : EndsRun r) : ∃ t, behindZeros (s ++ r) = t ++ r ∧
      (Operand t x ∨ x = Numeral.ofParts [] [] ∧ (t = [] ∨ t = ['.'])) := by
  have blank {c : Char} {w : Text} (hw : Blanks (c :: w)) : c ≠ '0' := by
    rintro rfl
    cases hw _ List.mem_cons_self
  cases h with
  | @plain w run y hw hrun =>
      cases w with
      | cons c w =>
          exact ⟨c :: w ++ run, Text.behindZeros_cons_of_ne (blank hw) _,
            Or.inl (Operand.plain hw hrun)⟩
      | nil =>
          refine ⟨run.behindZeros, Text.behindZeros_append run ends.behindZeros, ?_⟩
          exact hrun.behindZeros.imp_left (Operand.plain hw)
  | @negated w v run c y hw hc hv hrun =>
      refine ⟨_, ?_, Or.inl (Operand.negated hw hc hv hrun)⟩
      cases w with
      | cons d w => exact Text.behindZeros_cons_of_ne (blank hw) _
      | nil =>
          refine Text.behindZeros_cons_of_ne ?_ _
          rintro rfl
          cases hc

/-- A minus in front of an operand without one multiplies it by `-1`. -/
theorem Chain.Operand.behindMinus {c : Char} {s r : Text} {x : Float} (h : Operand s x)
    (hc : Operator.IsGlyph .subtract c) (unbroken : Unbroken s)
    (needs : Expression.needsZero (c :: (s ++ r)) = false) : Operand (c :: s) (-1.0 * x) := by
  cases h with
  | plain hw hrun => exact Operand.negated Text.blanks_nil hc hw hrun
  | @negated w v run d y hw hd hv hrun =>
      -- without blanks the second minus stands right behind the first
      obtain rfl := (Text.unbroken_append.1 unbroken).1.eq_nil hw
      rw [Expression.needsZero_minus hc] at needs
      simp [Operator.ofGlyph?_eq_some_iff.2 hd] at needs

namespace Expression

/-- A minus in front of an expression belongs to its first operand. -/
theorem Spells.behindMinus {c : Char} {s : Text} {chain : Chain} (h : Spells s chain)
    (hc : Operator.IsGlyph .subtract c) (unbroken : Unbroken s)
    (needs : needsZero (c :: s) = false) :
    Spells (c :: s) ⟨-1.0 * chain.first, chain.rest⟩ := by
  cases h with
  | operand hs hw =>
      exact Spells.operand (hs.behindMinus hc (Text.unbroken_append.1 unbroken).1 needs) hw
  | operation hs hw hd rest =>
      exact Spells.operation (hs.behindMinus hc (Text.unbroken_append.1 unbroken).1 needs) hw hd
        rest

/-- **An expression without its leading zeros**: it spells the same chain, or nothing is left
of a lone zero, or a zero is left out in front of a minus. -/
theorem Spells.behindZeros {s : Text} {chain : Chain} (h : Spells s chain)
    (unbroken : Unbroken s) (needs : needsZero (behindZeros s) = false) :
    Spells (behindZeros s) chain ∨
      chain = ⟨Numeral.ofParts [] [], []⟩ ∧ behindZeros s = [] ∨
      ∃ x rest, chain = ⟨Numeral.ofParts [] [], (.subtract, x) :: rest⟩ ∧
        Spells (behindZeros s) ⟨-1.0 * x, rest⟩ := by
  cases h with
  | @operand s w x hs hw =>
      obtain rfl := (Text.unbroken_append.1 unbroken).2.eq_nil hw
      obtain ⟨t, split, left⟩ := hs.behindZeros Text.endsRun_nil
      rw [split] at needs ⊢
      rcases left with operand | ⟨rfl, rfl | rfl⟩
      · exact Or.inl (Spells.operand operand hw)
      · exact Or.inr (Or.inl ⟨rfl, rfl⟩)
      · cases needs
  | @operation s w r c op x tail hs hw hc rest =>
      obtain rfl := (Text.unbroken_append.1 (Text.unbroken_append.1 unbroken).2).1.eq_nil hw
      obtain ⟨t, split, left⟩ := hs.behindZeros (Text.endsRun_cons.2 hc.isNumeral)
      rw [List.nil_append, split] at needs ⊢
      rcases left with operand | ⟨rfl, rfl | rfl⟩
      · exact Or.inl (Spells.operation operand hw hc rest)
      · -- the zero was all of the operand, so the text starts with the operator
        have minus : op = .subtract := by
          rw [List.nil_append, needsZero, Operator.ofGlyph?_eq_some_iff.2 hc] at needs
          cases op with
          | subtract => rfl
          | add => cases needs
          | multiply => cases needs
          | divide => cases needs
        subst minus
        have still : Unbroken r := fun d hd => unbroken d (by simp [hd])
        exact Or.inr (Or.inr ⟨_, _, rfl, rest.behindMinus hc still needs⟩)
      · have noDigit : Numeral.isDigit c = false := by
          have := hc.isNumeral
          rw [Numeral.isNumeral, Bool.or_eq_false_iff] at this
          exact this.1
        simp [noDigit] at needs

end Expression

/-! ### Values -/

namespace Expression

theorem spells_of_evaluate {s : Text} {v : Float} (h : evaluate s = .ok v) :
    ∃ chain, Spells s chain ∧ chain.value = .ok v := by
  unfold evaluate at h
  split at h
  · rename_i chain parsed
    exact ⟨chain, parse_eq_ok_iff.1 parsed, h⟩
  · cases h

theorem Spells.ne_nil {s : Text} {chain : Chain} (h : Spells s chain) : s ≠ [] := by
  rintro rfl
  have none : parse [] = .error .empty := rfl
  rw [parse_eq_ok_iff.2 h] at none
  cases none

/-- **Leading zeros can be left out**: what stands behind them has the same value, up to the
sign of a zero, if it is an expression at all; a zero stands for nothing. -/
theorem evaluate_behindZeros {s : Text} {v : Float} (unbroken : Unbroken s)
    (h : evaluate s = .ok v) (needs : needsZero (behindZeros s) = false) :
    ∃ w, evaluate (if behindZeros s = [] then ['0'] else behindZeros s) = .ok w ∧
      Alike v w := by
  obtain ⟨chain, spells, value⟩ := spells_of_evaluate h
  rcases spells.behindZeros unbroken needs with same | ⟨rfl, gone⟩ | ⟨x, rest, rfl, minus⟩
  · rw [if_neg same.ne_nil, evaluate_of_spells same]
    exact ⟨v, value, Double.Agree.same _⟩
  · have digits : Numeral.Digits ['0'] := by simp [Numeral.Digits, Numeral.isDigit]
    have zero : Spells ['0'] ⟨Numeral.ofParts [] [], []⟩ :=
      Spells.operand (Chain.Operand.plain Text.blanks_nil
        (Numeral.Literal.whole (by simp) digits)) Text.blanks_nil
    rw [if_pos gone, evaluate_of_spells zero]
    exact ⟨v, value, Double.Agree.same _⟩
  · have zero : (Numeral.ofParts [] []).toModel.unpack = .zero .positive := by rfl
    rw [if_neg minus.ne_nil, evaluate_of_spells minus]
    exact Chain.value_zero_subtract zero value

end Expression

end HeartKeypad
