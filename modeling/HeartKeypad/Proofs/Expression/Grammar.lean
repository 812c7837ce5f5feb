import HeartKeypad.Proofs.Expression.Columns
import HeartKeypad.Proofs.Expression.Precedence
import HeartKeypad.Proofs.Expression.Spelling

/-!
# The grammar of expressions

`Expression.Spells s chain` derives a chain from a text:

    expression := operand (binary_op operand)*
    operand    := "-"? number
    number     := digits ("." digits?)? | "." digits

with blanks before, between and after the tokens, but not inside a number.

* `Expression.parse_eq_ok_iff` — parsing yields the chain that a text spells, and
  fails on a text that spells none.
* `Expression.parse_error_iff_not_derivable` — evaluation reports a parse fault for
  exactly the texts outside the grammar.
* `Expression.evaluate_eq_outcome` — the value of a text of the grammar is the outcome
  of its precedence tree, and so it is when computed in columns.

### How tokens and derivations meet

A chain is read from tokens, and `Token.Spelled` says which tokens a text spells.  In
one direction the recursion of `Chain.ofTokensFrom` is followed, and a sign that has
been read is kept as the text in front (`Sign`).  In the other direction a derivation
is taken apart: each operand contributes one token or two, and the text behind it
starts with a blank or an operator, so that its literal ends there.
-/

namespace HeartKeypad

open Text (Blanks EndsRun)

/-! ### Derivations -/

/-- **An operand**: a literal, or a minus and a literal, which multiplies by `-1`. -/
inductive Chain.Operand : Text → Float → Prop
  | plain {w run : Text} {x : Float} : Blanks w → Numeral.Literal run x →
      Operand (w ++ run) x
  | negated {w v run : Text} {c : Char} {x : Float} : Blanks w →
      Operator.IsGlyph .subtract c → Blanks v → Numeral.Literal run x →
      Operand (w ++ c :: (v ++ run)) (-1.0 * x)

namespace Expression

/-- **The expressions**, with the operands and operators that they chain. -/
inductive Spells : Text → Chain → Prop
  | operand {s w : Text} {x : Float} : Chain.Operand s x → Blanks w →
      Spells (s ++ w) ⟨x, []⟩
  | operation {s w t : Text} {c : Char} {op : Operator} {x : Float} {chain : Chain} :
      Chain.Operand s x → Blanks w → op.IsGlyph c → Spells t chain →
      Spells (s ++ (w ++ c :: t)) ⟨x, (op, chain.first) :: chain.rest⟩

/-- The text is an expression. -/
def Derivable (s : Text) : Prop := ∃ chain, Spells s chain

end Expression

/-! ### From tokens to derivations -/

namespace Chain

/-- The text of a sign that has been read: none, or blanks and a minus. -/
inductive Sign : Bool → Text → Prop
  | none : Sign false []
  | minus {w : Text} {c : Char} : Blanks w → Operator.IsGlyph .subtract c → Sign true (w ++ [c])

theorem Sign.operand {minus : Bool} {p w run : Text} {x : Float} (hp : Sign minus p)
    (hw : Blanks w) (hrun : Numeral.Literal run x) :
    Operand (p ++ (w ++ run)) (signed minus x) := by
  cases hp with
  | none => rw [List.nil_append]; exact .plain hw hrun
  | minus hv hc =>
      rw [List.append_assoc, List.singleton_append]
      exact .negated hv hc hw hrun

/-- Tokens that a chain is read from spell an expression, behind the sign that has been
read before. -/
theorem spells_of_ofTokensFrom {minus : Bool} {index : Nat} {ts : List Token} {chain : Chain}
    (h : ofTokensFrom minus index ts = .ok chain) {p s : Text} (hp : Sign minus p)
    (hs : Token.Spelled s ts) : Expression.Spells (p ++ s) chain := by
  fun_induction ofTokensFrom minus index ts generalizing chain p s with
  | case1 minus index x =>
      cases h
      obtain ⟨w, run, r, hw, hrun, rfl, hr⟩ := hs.number_inv
      rw [← List.append_assoc w, ← List.append_assoc p]
      exact .operand (hp.operand hw hrun) hr.blanks
  | case2 minus index x op ts ih =>
      obtain ⟨w, run, r, hw, hrun, rfl, hr⟩ := hs.number_inv
      obtain ⟨v, c, t, hv, hc, rfl, ht⟩ := hr.operator_inv
      cases rest : ofTokensFrom false (index + 2) ts with
      | error e => rw [rest] at h; cases h
      | ok d =>
          rw [rest] at h
          cases h
          rw [← List.append_assoc w, ← List.append_assoc p]
          -- the sign was this operand's, so the rest starts without one
          exact .operation (hp.operand hw hrun) hv hc (ih rest .none ht)
  | case3 => cases h
  | case4 => cases h
  | case5 minus index ts hminus ih =>
      obtain ⟨w, c, r, hw, hc, rfl, hr⟩ := hs.operator_inv
      cases hp with
      -- a second sign is refused
      | minus => exact absurd rfl hminus
      | none =>
          have := ih h (.minus hw hc) hr
          rwa [List.append_assoc, List.singleton_append] at this
  | case6 => cases h

/-! ### From derivations to tokens -/

/-- The tokens of an operand: a chain of it alone is read from them, and they are read
as the first operand of a longer chain. -/
structure ReadAs (us : List Token) (x : Float) : Prop where
  alone : ∀ index, ofTokensFrom false index us = .ok ⟨x, []⟩
  first : ∀ {ts : List Token} {chain : Chain} (op : Operator),
    (∀ index, ofTokensFrom false index ts = .ok chain) →
      ∀ index, ofTokensFrom false index (us ++ .operator op :: ts) =
        .ok ⟨x, (op, chain.first) :: chain.rest⟩

theorem readAs_number (x : Float) : ReadAs [.number x] x where
  alone _ := rfl
  first op h index := by
    rw [List.singleton_append, ofTokensFrom, h]
    rfl

theorem readAs_negated (x : Float) : ReadAs [.operator .subtract, .number x] (-1.0 * x) where
  alone _ := rfl
  first op h index := by
    show ofTokensFrom true (index + 1) (.number x :: .operator op :: _) = _
    rw [ofTokensFrom, h]
    rfl

/-- In front of a text that ends runs, an operand spells its own tokens. -/
theorem Operand.spelled {s : Text} {x : Float} (h : Operand s x) :
    ∃ us, ReadAs us x ∧ ∀ {r : Text} {ts : List Token}, EndsRun r → Token.Spelled r ts →
      Token.Spelled (s ++ r) (us ++ ts) := by
  cases h with
  | plain hw hrun =>
      refine ⟨_, readAs_number x, fun ends hr => ?_⟩
      rw [List.append_assoc]
      exact .blanks_append hw (.literal hrun ends hr)
  | @negated w v run c y hw hc hv hrun =>
      refine ⟨_, readAs_negated y, fun ends hr => ?_⟩
      rw [List.append_assoc, List.cons_append, List.append_assoc]
      exact .blanks_append hw (.glyph hc (.blanks_append hv (.literal hrun ends hr)))

end Chain

namespace Expression

/-- An expression spells tokens from which its chain is read. -/
theorem Spells.spelled {s : Text} {chain : Chain} (h : Spells s chain) :
    ∃ ts, Token.Spelled s ts ∧ ∀ index, Chain.ofTokensFrom false index ts = .ok chain := by
  induction h with
  | operand hs hw =>
      obtain ⟨us, read, spelled⟩ := hs.spelled
      have blank : Token.Spelled (_ ++ []) [] := .blanks_append hw .nil
      rw [List.append_nil] at blank
      refine ⟨us, ?_, read.alone⟩
      simpa using spelled (by simpa using hw.endsRun_append Text.endsRun_nil) blank
  | @operation s w t c op x chain hs hw hc _ ih =>
      obtain ⟨ts, spelledRest, readRest⟩ := ih
      obtain ⟨us, read, spelled⟩ := hs.spelled
      have ends : EndsRun (w ++ c :: t) := hw.endsRun_append (Text.endsRun_cons.2 hc.isNumeral)
      exact ⟨us ++ .operator op :: ts,
        spelled ends (.blanks_append hw (.glyph hc spelledRest)), read.first op readRest⟩

/-- **Parsing yields the chain that a text spells**, and fails on a text that spells
none. -/
theorem parse_eq_ok_iff {s : Text} {chain : Chain} : parse s = .ok chain ↔ Spells s chain := by
  constructor
  · intro h
    unfold parse at h
    cases ht : Token.ofText s with
    | error e => rw [ht] at h; cases h
    | ok ts =>
        have read : Chain.ofTokens ts = .ok chain := by
          rw [ht] at h
          exact h
        cases ts with
        | nil => cases read
        | cons t ts => exact Chain.spells_of_ofTokensFrom read .none (Token.ofText_eq_ok_iff.1 ht)
  · intro h
    obtain ⟨ts, spelled, read⟩ := h.spelled
    have nonempty : ts ≠ [] := by
      rintro rfl
      cases read 0
    unfold parse
    rw [Token.ofText_eq_ok_iff.2 spelled]
    show Chain.ofTokens ts = _
    rw [Chain.ofTokens]
    · exact read 0
    · exact nonempty

/-- A text spells one chain at most. -/
theorem Spells.unique {s : Text} {c d : Chain} (hc : Spells s c) (hd : Spells s d) : c = d := by
  have h := parse_eq_ok_iff.2 hc
  rw [parse_eq_ok_iff.2 hd] at h
  exact (Except.ok.inj h).symm

theorem evaluate_of_spells {s : Text} {chain : Chain} (h : Spells s chain) :
    evaluate s = chain.value := by
  rw [evaluate, parse_eq_ok_iff.2 h]

/-- A chain has a value, or meets a result that is not finite. -/
theorem value_eq_ok_or_nonFinite (chain : Chain) :
    (∃ x, chain.value = .ok x) ∨ chain.value = .error .nonFinite := by
  obtain ⟨t, ⟨ht, rfl⟩, -⟩ := Tree.existsUnique_isSum chain
  rw [ht.value_chain, Tree.outcome]
  split
  · exact Or.inl ⟨_, rfl⟩
  · exact Or.inr rfl

theorem not_parse_error {s : Text} {fault : ParseFault}
    (h : (∃ x, evaluate s = .ok x) ∨ evaluate s = .error .nonFinite) :
    evaluate s ≠ .error (.parse fault) := by
  rcases h with ⟨x, hx⟩ | hx
  · rw [hx]; simp
  · rw [hx]; simp

/-- Outside the grammar there is a parse fault. -/
theorem parse_error_of_not_derivable {s : Text} (h : ¬ Derivable s) :
    ∃ fault, evaluate s = .error (.parse fault) := by
  cases hp : parse s with
  | ok chain => exact absurd ⟨chain, parse_eq_ok_iff.1 hp⟩ h
  | error fault => exact ⟨fault, by rw [evaluate, hp]⟩

/-- Within the grammar there is a value, or the result is not finite. -/
theorem Derivable.evaluate {s : Text} (h : Derivable s) :
    (∃ x, evaluate s = .ok x) ∨ evaluate s = .error .nonFinite := by
  obtain ⟨chain, h⟩ := h
  rw [evaluate_of_spells h]
  exact value_eq_ok_or_nonFinite chain

/-- **Evaluation accepts exactly the grammar.**  It reports a parse fault for the texts
that are no expressions and for no others; the expressions are the texts that have a
value or whose result is not finite. -/
theorem parse_error_iff_not_derivable (s : Text) :
    ((∃ fault, evaluate s = .error (.parse fault)) ↔ ¬ Derivable s) ∧
      (Derivable s ↔ (∃ x, evaluate s = .ok x) ∨ evaluate s = .error .nonFinite) := by
  refine ⟨⟨?_, parse_error_of_not_derivable⟩, ⟨Derivable.evaluate, ?_⟩⟩
  · rintro ⟨fault, hf⟩ derivable
    exact not_parse_error derivable.evaluate hf
  · intro h
    by_contra underivable
    obtain ⟨fault, hf⟩ := parse_error_of_not_derivable underivable
    exact not_parse_error h hf

/-- **Evaluation follows the precedence tree.**  An expression spells one chain, this
chain is read from one precedence tree, and the value of the text is the outcome of
that tree: no operand and no operator is lost, doubled or moved.  In columns the operands
and the operators of the chain are read, one operand more than operators, and no index is
out of bounds before the same outcome is there. -/
theorem evaluate_eq_outcome {s : Text} {chain : Chain} (h : Spells s chain) :
    (∀ other, Spells s other → other = chain) ∧
      (∃! t : Tree, t.IsSum ∧ t.chain = chain) ∧
      (∀ t : Tree, t.IsSum → t.chain = chain → evaluate s = t.outcome) ∧
      Columns.ofText s = .ok chain.columns ∧ chain.columns.Fits ∧
      ∀ t : Tree, t.IsSum → t.chain = chain → evaluateColumns? s = some t.outcome := by
  have outcome (t : Tree) (ht : t.IsSum) (same : t.chain = chain) : evaluate s = t.outcome := by
    rw [evaluate_of_spells h, ← same, ht.value_chain]
  refine ⟨fun other ho => ho.unique h, Tree.existsUnique_isSum chain, outcome, ?_,
    Columns.fits_columns chain, fun t ht same => ?_⟩
  · rw [Columns.ofText_eq, parse_eq_ok_iff.2 h]
    rfl
  · rw [evaluateColumns?_eq, outcome t ht same]

/-- `-2 + 3×4`: the minus belongs to the first operand, and the product comes first. -/
theorem evaluate_negated_plus_product :
    Spells ['-', '2', ' ', '+', ' ', '3', '×', '4'] ⟨-2.0, [(.add, 3.0), (.multiply, 4.0)]⟩ ∧
      evaluate ['-', '2', ' ', '+', ' ', '3', '×', '4'] = .ok 10.0 ∧
      evaluateColumns? ['-', '2', ' ', '+', ' ', '3', '×', '4'] = some (.ok 10.0) := by
  have h : Spells ['-', '2', ' ', '+', ' ', '3', '×', '4']
      ⟨-2.0, [(.add, 3.0), (.multiply, 4.0)]⟩ := parse_eq_ok_iff.1 (by decide +kernel)
  have product : (Tree.node .multiply (.operand 3.0) (.operand 4.0)).IsTerm :=
    .snoc 4.0 (Or.inl rfl) (.lone 3.0)
  have sum : (Tree.node .add (.operand (-2.0))
      (.node .multiply (.operand 3.0) (.operand 4.0))).IsSum :=
    .snoc (Or.inl rfl) (.term (.lone _)) product
  obtain ⟨-, -, outcome, -, -, inColumns⟩ := evaluate_eq_outcome h
  refine ⟨h, ?_, ?_⟩
  · rw [outcome _ sum rfl]
    decide
  · rw [inColumns _ sum rfl]
    decide

end Expression

end HeartKeypad
