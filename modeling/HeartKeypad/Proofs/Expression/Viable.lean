import HeartKeypad.Proofs.Expression.Grammar
import HeartKeypad.Proofs.Expression.LexicalFaults
import Mathlib.Order.Bounds.Basic

/-!
# Where a text stops being an expression

A text that is no expression is reported with the first reason, and this module says what
first means.  Lexical faults come before all others, the leftmost of them first.  Without one
the text spells tokens; if these make up no expression, some of them still start one, and what
is reported is how many.

* `Token.IsExpression` — the grammar of expressions, over tokens.
* `Token.Viable` — tokens that some expression starts with.
* `Token.Longest` — the number of tokens at the front that are viable, at most.
* `Chain.longest_of_error` — reading tokens fails behind the longest viable ones.
* `Expression.parse_fault_exact` — the fault that is reported for a text.

### Why the reader stops at the right place

The reader does not look back, and has no need to: behind an operand and an operator
anything may follow that may stand at the start, and behind a sign only a number.  So
`Viable` is decided token by token (`Token.viable_number_cons`,
`Token.viable_operator_cons`), in step with the recursion of `Chain.ofTokensFrom`.
-/

namespace HeartKeypad

namespace Token

/-! ### The grammar of tokens -/

/-- An operand: a number, or a minus and a number. -/
inductive IsOperand : List Token → Prop
  | plain (x : Float) : IsOperand [.number x]
  | negated (x : Float) : IsOperand [.operator .subtract, .number x]

/-- **An expression**: operands with operators between them. -/
inductive IsExpression : List Token → Prop
  | operand {us : List Token} : IsOperand us → IsExpression us
  | operation {us vs : List Token} (op : Operator) : IsOperand us → IsExpression vs →
      IsExpression (us ++ .operator op :: vs)

/-- **Tokens that some expression starts with.** -/
def Viable (ts : List Token) : Prop := ∃ rest, IsExpression (ts ++ rest)

/-- **The number of tokens that can be taken behind others**, at most, so that some expression
starts with all of them. -/
def Longest (front ts : List Token) (n : Nat) : Prop :=
  IsGreatest {k | ∃ us, us <+: ts ∧ Viable (front ++ us) ∧ us.length = k} n

variable {front front' us vs ts : List Token} {t : Token} {x : Float} {op : Operator} {n : Nat}

@[simp] theorem not_isExpression_nil : ¬ IsExpression [] := by
  intro h
  generalize none : ([] : List Token) = ts at h
  cases h with
  | operand h => cases h <;> cases none
  | operation op h _ => cases h <;> cases none

/-- Behind a number an expression ends, or an operator follows and another expression. -/
@[simp] theorem isExpression_number_cons : IsExpression (.number x :: us) ↔
    us = [] ∨ ∃ op vs, us = .operator op :: vs ∧ IsExpression vs := by
  constructor
  · intro h
    generalize tokens : Token.number x :: us = ts at h
    cases h with
    | operand h =>
        cases h <;> cases tokens
        exact Or.inl rfl
    | operation op h rest =>
        cases h <;> cases tokens
        exact Or.inr ⟨op, _, rfl, rest⟩
  · rintro (rfl | ⟨op, vs, rfl, rest⟩)
    · exact .operand (.plain x)
    · exact .operation op (.plain x) rest

/-- An operator starts an expression only as a minus with a number behind it. -/
@[simp] theorem isExpression_operator_cons : IsExpression (.operator op :: us) ↔
    op = .subtract ∧ ∃ x vs, us = .number x :: vs ∧ IsExpression us := by
  constructor
  · intro h
    generalize tokens : Token.operator op :: us = ts at h
    cases h with
    | operand h =>
        cases h <;> cases tokens
        exact ⟨rfl, _, [], rfl, .operand (.plain _)⟩
    | operation op h rest =>
        cases h <;> cases tokens
        exact ⟨rfl, _, _, rfl, .operation op (.plain _) rest⟩
  · rintro ⟨rfl, x, vs, rfl, h⟩
    rcases isExpression_number_cons.1 h with rfl | ⟨op, ws, rfl, rest⟩
    · exact .operand (.negated x)
    · exact .operation op (.negated x) rest

/-! ### Viable tokens -/

@[simp] theorem viable_nil : Viable [] := ⟨[.number 0.0], by simp⟩

@[simp] theorem viable_number_cons : Viable (.number x :: us) ↔
    us = [] ∨ ∃ op vs, us = .operator op :: vs ∧ Viable vs := by
  constructor
  · rintro ⟨rest, h⟩
    rcases isExpression_number_cons.1 h with none | ⟨op, vs, split, h⟩
    · exact Or.inl (List.append_eq_nil_iff.1 none).1
    · cases us with
      | nil => exact Or.inl rfl
      | cons u us =>
          obtain ⟨rfl, rfl⟩ := List.cons.inj split
          exact Or.inr ⟨op, us, rfl, rest, h⟩
  · rintro (rfl | ⟨op, vs, rfl, rest, h⟩)
    · exact ⟨[], by simp⟩
    · exact ⟨rest, by simp [h]⟩

@[simp] theorem viable_operator_cons : Viable (.operator op :: us) ↔
    op = .subtract ∧ (us = [] ∨ ∃ x vs, us = .number x :: vs ∧ Viable us) := by
  constructor
  · rintro ⟨rest, h⟩
    obtain ⟨rfl, x, vs, split, h⟩ := isExpression_operator_cons.1 h
    refine ⟨rfl, ?_⟩
    cases us with
    | nil => exact Or.inl rfl
    | cons u us =>
        obtain ⟨rfl, rfl⟩ := List.cons.inj split
        exact Or.inr ⟨x, us, rfl, rest, h⟩
  · rintro ⟨rfl, rfl | ⟨x, vs, rfl, rest, h⟩⟩
    · exact ⟨[.number 0.0], by simp⟩
    · exact ⟨rest, isExpression_operator_cons.2 ⟨rfl, x, vs ++ rest, rfl, h⟩⟩

/-! ### The longest viable tokens -/

theorem longest_nil (h : Viable front) : Longest front [] 0 := by
  refine ⟨⟨[], List.nil_prefix, by rwa [List.append_nil], rfl⟩, ?_⟩
  rintro k ⟨us, start, -, rfl⟩
  rw [List.prefix_nil.1 start, List.length_nil]

/-- No token can be taken if the first cannot. -/
theorem longest_zero (h : Viable front) (stop : ∀ us, ¬ Viable (front ++ t :: us)) :
    Longest front (t :: ts) 0 := by
  refine ⟨⟨[], List.nil_prefix, by rwa [List.append_nil], rfl⟩, ?_⟩
  rintro k ⟨us, start, viable, rfl⟩
  rcases List.prefix_cons_iff.1 start with rfl | ⟨vs, rfl, -⟩
  · exact le_refl _
  · exact absurd viable (stop vs)

/-- If the first can, the others go on from there. -/
theorem longest_succ (same : ∀ us, Viable (front ++ t :: us) ↔ Viable (front' ++ us))
    (h : Longest front' ts n) : Longest front (t :: ts) (n + 1) := by
  obtain ⟨⟨us, start, viable, length⟩, most⟩ := h
  constructor
  · exact ⟨t :: us, List.prefix_cons_inj t |>.2 start, (same us).2 viable, by simp [length]⟩
  · rintro k ⟨vs, start, viable, rfl⟩
    rcases List.prefix_cons_iff.1 start with rfl | ⟨ws, rfl, rest⟩
    · exact Nat.zero_le _
    · exact Nat.succ_le_succ (most ⟨ws, rest, (same ws).1 viable, rfl⟩)

end Token

/-! ### Reading tokens -/

namespace Chain

open Token (IsExpression Viable Longest)

variable {minus : Bool} {index : Nat} {ts us : List Token} {x : Float}

/-- The tokens of a sign that has been read: none, or a minus. -/
def signTokens (minus : Bool) : List Token := if minus then [.operator .subtract] else []

theorem viable_signTokens : Viable (signTokens minus) := by
  cases minus <;> simp [signTokens]

/-- Behind a sign a number starts what it would start without it. -/
theorem isExpression_sign_number :
    IsExpression (signTokens minus ++ .number x :: us) ↔ IsExpression (.number x :: us) := by
  cases minus <;> simp [signTokens]

theorem viable_sign_number :
    Viable (signTokens minus ++ .number x :: us) ↔ Viable (.number x :: us) := by
  cases minus <;> simp [signTokens]

/-- Where an operand is missing, there is nothing, or an operator that is no sign. -/
theorem nil_or_operator (lone : ∀ x, ts = [.number x] → False)
    (first : ∀ x op us, ts = .number x :: .operator op :: us → False)
    (double : ∀ x y us, ts = .number x :: .number y :: us → False)
    (sign : ∀ us, ts = .operator .subtract :: us → False) :
    ts = [] ∨ ∃ op us, op ≠ .subtract ∧ ts = .operator op :: us := by
  cases ts with
  | nil => exact Or.inl rfl
  | cons t us =>
      cases t with
      | operator op =>
          refine Or.inr ⟨op, us, ?_, rfl⟩
          rintro rfl
          exact sign us rfl
      | number x =>
          exfalso
          cases us with
          | nil => exact lone x rfl
          | cons u us =>
              cases u with
              | number y => exact double x y us rfl
              | operator op => exact first x op us rfl

/-- **A chain is read from the expressions** among the tokens, and from nothing else. -/
theorem exists_ofTokensFrom_iff :
    (∃ chain, ofTokensFrom minus index ts = .ok chain) ↔
      IsExpression (signTokens minus ++ ts) := by
  fun_induction ofTokensFrom minus index ts with
  | case1 minus index x => simp [isExpression_sign_number]
  | case2 minus index x op ts ih =>
      rw [isExpression_sign_number, Token.isExpression_number_cons]
      simp only [signTokens, Bool.false_eq_true, if_false, List.nil_append] at ih
      cases rest : ofTokensFrom false (index + 2) ts <;> simp [rest, Except.map] at ih ⊢ <;>
        exact ih
  | case3 => simp [isExpression_sign_number]
  | case4 => simp [signTokens]
  | case5 minus index ts single ih =>
      obtain rfl : minus = false := by simpa using single
      exact ih
  | case6 ts minus index lone first double sign =>
      rcases nil_or_operator lone first double sign with rfl | ⟨op, us, other, rfl⟩
      · cases minus <;> simp [signTokens]
      · cases minus <;> simp [signTokens, other]

/-- **Reading fails behind the longest viable tokens.** -/
theorem longest_of_error {fault : ParseFault} (h : ofTokensFrom minus index ts = .error fault) :
    ∃ n, fault = .missingOperand (index + n) ∧ Longest (signTokens minus) ts n := by
  fun_induction ofTokensFrom minus index ts with
  | case1 => cases h
  | case2 minus index x op ts ih =>
      cases rest : ofTokensFrom false (index + 2) ts with
      | ok chain => rw [rest] at h; cases h
      | error f =>
          rw [rest] at h
          cases h
          obtain ⟨n, rfl, longest⟩ := ih rest
          -- an operand and an operator are read, and the rest stands for itself
          have behind : Longest [.number x] (.operator op :: ts) (n + 1) :=
            Token.longest_succ (fun us => by simp [signTokens]) longest
          refine ⟨n + 2, by rw [Nat.add_assoc, Nat.add_comm 2], ?_⟩
          exact Token.longest_succ (fun us => viable_sign_number) behind
  | case3 minus index x y ts =>
      cases h
      have stop : Longest [.number x] (.number y :: ts) 0 :=
        Token.longest_zero (by simp) (by simp)
      exact ⟨1, rfl, Token.longest_succ (fun us => viable_sign_number) stop⟩
  | case4 index ts =>
      cases h
      exact ⟨0, rfl, Token.longest_zero viable_signTokens (by simp [signTokens])⟩
  | case5 minus index ts single ih =>
      obtain rfl : minus = false := by simpa using single
      obtain ⟨n, rfl, longest⟩ := ih h
      exact ⟨n + 1, by rw [Nat.add_assoc, Nat.add_comm 1],
        Token.longest_succ (fun us => Iff.rfl) longest⟩
  | case6 ts minus index lone first double sign =>
      cases h
      refine ⟨0, rfl, ?_⟩
      rcases nil_or_operator lone first double sign with rfl | ⟨op, us, other, rfl⟩
      · exact Token.longest_nil viable_signTokens
      · refine Token.longest_zero viable_signTokens fun us => ?_
        cases minus <;> simp [signTokens, other]

end Chain

/-! ### What is reported -/

namespace Expression

open Token (IsExpression Longest Spelled Viable)

variable {s : Text} {f : ParseFault} {ts : List Token}

theorem evaluate_of_error (h : parse s = .error f) : evaluate s = .error (.parse f) := by
  rw [evaluate, h]

/-- A lexical fault is reported before anything else. -/
theorem evaluate_of_leftmost (h : Text.Leftmost s f) : evaluate s = .error (.parse f) := by
  refine evaluate_of_error ?_
  rw [parse, Text.ofText_eq_error_iff.2 h]
  rfl

/-- A character that means nothing is a fault wherever it stands. -/
theorem evaluate_of_stray {c : Char} (h : c ∈ s) (stray : Text.Stray c) :
    ∃ f, evaluate s = .error (.parse f) := by
  obtain ⟨front, behind, rfl⟩ := List.append_of_mem h
  have fault : Text.FaultAt (front ++ c :: behind) front.length (.unexpected c front.length) :=
    Text.faultAt_append.2 (.stray stray)
  obtain ⟨f, leftmost⟩ := Text.exists_leftmost fun sound => sound _ _ fault
  exact ⟨f, evaluate_of_leftmost leftmost⟩

/-- Without a lexical fault the tokens are put together. -/
theorem parse_of_spelled (h : Spelled s ts) : parse s = Chain.ofTokens ts := by
  rw [parse, Token.ofText_eq_ok_iff.2 h]
  rfl

/-- A text without tokens is empty. -/
theorem evaluate_of_no_tokens (h : Spelled s []) : evaluate s = .error (.parse .empty) :=
  evaluate_of_error (parse_of_spelled h)

theorem ofTokens_of_ne_nil (nonempty : ts ≠ []) :
    Chain.ofTokens ts = Chain.ofTokensFrom false 0 ts := by
  cases ts with
  | nil => exact absurd rfl nonempty
  | cons t ts => rfl

/-- Tokens that are no expression are reported with the number of those that start one. -/
theorem evaluate_of_not_isExpression (h : Spelled s ts) (nonempty : ts ≠ [])
    (wrong : ¬ IsExpression ts) :
    ∃ n, Longest [] ts n ∧ evaluate s = .error (.parse (.missingOperand n)) := by
  have parsed := parse_of_spelled h
  rw [ofTokens_of_ne_nil nonempty] at parsed
  cases read : Chain.ofTokensFrom false 0 ts with
  | ok chain => exact absurd (Chain.exists_ofTokensFrom_iff.1 ⟨chain, read⟩) wrong
  | error f =>
      obtain ⟨n, rfl, longest⟩ := Chain.longest_of_error read
      rw [Nat.zero_add] at read
      exact ⟨n, longest, evaluate_of_error (parsed.trans read)⟩

/-- Tokens that are an expression are not reported. -/
theorem evaluate_of_isExpression (h : Spelled s ts) (right : IsExpression ts) (f : ParseFault) :
    evaluate s ≠ .error (.parse f) := by
  have nonempty : ts ≠ [] := by
    rintro rfl
    exact Token.not_isExpression_nil right
  obtain ⟨chain, read⟩ := (@Chain.exists_ofTokensFrom_iff false 0 ts).2 right
  have parsed := parse_of_spelled h
  rw [ofTokens_of_ne_nil nonempty, read] at parsed
  refine not_parse_error ?_
  rw [evaluate, parsed]
  exact value_eq_ok_or_nonFinite chain

/-- **The first fault of a text is reported.**

* With a lexical fault, it is the leftmost one, which is the only one at its position.
* Otherwise the text spells one list of tokens.  If there are none, the text is empty; if they
  are no expression, an operand is missing behind the longest tokens that some expression
  starts with; and if they are one, there is no fault. -/
theorem parse_fault_exact (s : Text) :
    (¬ Text.Sound s → ∃ i f, Text.FaultAt s i f ∧
      (∀ j g, Text.FaultAt s j g → i < j ∨ j = i ∧ g = f) ∧
      evaluate s = .error (.parse f)) ∧
    (Text.Sound s → ∃ ts, (∀ us, Spelled s us ↔ us = ts) ∧
      (ts = [] → evaluate s = .error (.parse .empty)) ∧
      (ts ≠ [] → ¬ IsExpression ts →
        ∃ n, IsGreatest {k | ∃ us, us <+: ts ∧ Viable us ∧ us.length = k} n ∧
          evaluate s = .error (.parse (.missingOperand n))) ∧
      (IsExpression ts → ∀ f, evaluate s ≠ .error (.parse f))) := by
  constructor
  · intro unsound
    obtain ⟨f, leftmost⟩ := Text.exists_leftmost unsound
    have reported := evaluate_of_leftmost leftmost
    obtain ⟨i, fault, least⟩ := leftmost
    refine ⟨i, f, fault, fun j g other => ?_, reported⟩
    rcases Nat.lt_or_eq_of_le (least j g other) with behind | rfl
    · exact Or.inl behind
    · exact Or.inr ⟨rfl, other.unique fault⟩
  · intro sound
    obtain ⟨ts, spelled⟩ := sound.exists_spelled
    have spells := (spelled ts).2 rfl
    refine ⟨ts, spelled, ?_, evaluate_of_not_isExpression spells,
      evaluate_of_isExpression spells⟩
    rintro rfl
    exact evaluate_of_no_tokens spells

/-- `5+×3` lacks an operand behind two tokens; in `4 1.2.3 $` the run is reported, and not the
stray character behind it. -/
theorem parse_fault_of_two_texts :
    (∃ ts, Spelled ['5', '+', '×', '3'] ts ∧
      IsGreatest {k | ∃ us, us <+: ts ∧ Viable us ∧ us.length = k} 2 ∧
      evaluate ['5', '+', '×', '3'] = .error (.parse (.missingOperand 2))) ∧
    ∃ i, Text.FaultAt ['4', ' ', '1', '.', '2', '.', '3', ' ', '$'] i
        (.malformed ['1', '.', '2', '.', '3']) ∧
      evaluate ['4', ' ', '1', '.', '2', '.', '3', ' ', '$'] =
        .error (.parse (.malformed ['1', '.', '2', '.', '3'])) := by
  constructor
  · have tokens : Token.ofText ['5', '+', '×', '3'] = .ok
        [.number 5.0, .operator .add, .operator .multiply, .number 3.0] := by decide +kernel
    obtain ⟨ts, spelled, -, missing, -⟩ :=
      (parse_fault_exact ['5', '+', '×', '3']).2 (Text.sound_of_ok tokens)
    obtain rfl := (spelled _).1 (Token.ofText_eq_ok_iff.1 tokens)
    obtain ⟨n, longest, reported⟩ := missing (by simp) (by simp)
    have two : evaluate ['5', '+', '×', '3'] = .error (.parse (.missingOperand 2)) := by
      decide
    rw [two] at reported
    cases reported
    exact ⟨_, Token.ofText_eq_ok_iff.1 tokens, longest, two⟩
  · have scan : Token.ofText ['4', ' ', '1', '.', '2', '.', '3', ' ', '$'] =
        .error (.malformed ['1', '.', '2', '.', '3']) := by decide
    obtain ⟨j, fault, -⟩ := Text.leftmost_of_error scan
    have unsound : ¬ Text.Sound ['4', ' ', '1', '.', '2', '.', '3', ' ', '$'] :=
      fun sound => sound _ _ fault
    obtain ⟨i, f, first, -, reported⟩ :=
      (parse_fault_exact ['4', ' ', '1', '.', '2', '.', '3', ' ', '$']).1 unsound
    have run : evaluate ['4', ' ', '1', '.', '2', '.', '3', ' ', '$'] =
        .error (.parse (.malformed ['1', '.', '2', '.', '3'])) := by decide
    rw [run] at reported
    cases reported
    exact ⟨i, first, run⟩

end Expression

end HeartKeypad
