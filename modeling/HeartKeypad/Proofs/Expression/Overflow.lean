import HeartKeypad.Proofs.Expression.Grammar
import HeartKeypad.Proofs.Number.Negation

/-!
# Where an infinity can hide

A literal that is too large for a double is read as an infinity.  Evaluation tests the
result of every operator and the value at the end, but no operand, so an infinite operand
is noticed only if it makes a result infinite or not a number.

* `Operator.isFinite_of_result` — of a finite result both sides are finite, except that the
  divisor may be an infinity, and then the quotient is zero.
* `Tree.Exposed` — the places of a precedence tree that are not a divisor.
* `Expression.infinite_only_as_divisor` — a text is reported as not finite iff a value in such
  a place is not; an infinity hides in a divisor and nowhere else.

### Why the other places are safe

Sums, differences and products are not finite as soon as one side is not, and neither is a
quotient with such a dividend.  So a value that is not finite spoils every result above it
in the tree, up to the next `÷` that it stands behind, and there is none above a term.
-/

namespace HeartKeypad

open Float.Model Float.Model.UnpackedFloat

/-! ### Operators -/

/-- **An operator lets an infinity through in its divisor only**, and makes zero of it. -/
theorem Operator.isFinite_of_result {op : Operator} {x y : Float}
    (h : (op.result x y).isFinite = true) :
    x.isFinite = true ∧ (y.isFinite = true ∨
      op = .divide ∧ y.isInf = true ∧ (op.result x y == 0.0) = true) := by
  cases op with
  | add =>
      obtain ⟨left, right⟩ := Double.isFinite_of_add (Double.isFinite_of_pack h)
      exact ⟨left, Or.inl right⟩
  | subtract =>
      obtain ⟨left, right⟩ := Double.isFinite_of_sub (Double.isFinite_of_pack h)
      exact ⟨left, Or.inl right⟩
  | multiply =>
      obtain ⟨left, right⟩ := Double.isFinite_of_mul (Double.isFinite_of_pack h)
      exact ⟨left, Or.inl right⟩
  | divide =>
      obtain ⟨left, right | ⟨s, t, infinite, zero⟩⟩ :=
        Double.isFinite_of_div (Double.isFinite_of_pack h)
      · exact ⟨left, Or.inl right⟩
      · refine ⟨left, Or.inr ⟨rfl, ?_, ?_⟩⟩
        · show y.toModel.unpack.isInf = true
          rw [infinite]
          rfl
        · show ((Float.Model.pack (UnpackedFloat.div _ x.toModel.unpack
            y.toModel.unpack)).unpack.beq (0.0 : Float).toModel.unpack) = true
          rw [zero, Double.unpack_pack_zero]
          cases t <;> rfl

/-! ### Places of a tree -/

namespace Tree

variable {t u : Tree}

/-- **The parts of a tree**, each with a value of its own: the operands, the results of the
operators, and the whole tree. -/
inductive Part (u : Tree) : Tree → Prop
  | whole : Part u u
  | left {op : Operator} {l r : Tree} : Part u l → Part u (node op l r)
  | right {op : Operator} {l r : Tree} : Part u r → Part u (node op l r)

/-- The parts that are not in a divisor. -/
inductive Exposed (u : Tree) : Tree → Prop
  | whole : Exposed u u
  | left {op : Operator} {l r : Tree} : Exposed u l → Exposed u (node op l r)
  | right {op : Operator} {l r : Tree} : op ≠ .divide → Exposed u r → Exposed u (node op l r)

theorem stepsFinite_node {op : Operator} {l r : Tree} :
    (node op l r).stepsFinite = true ↔ l.stepsFinite = true ∧ r.stepsFinite = true ∧
      (op.result l.value r.value).isFinite = true := by
  rw [stepsFinite, value_node, Bool.and_eq_true, Bool.and_eq_true, and_assoc]

/-- Only an operand has a value that is not finite behind finite steps. -/
theorem exists_operand (steps : t.stepsFinite = true) (h : t.value.isFinite = false) :
    ∃ x, t = operand x := by
  cases t with
  | operand x => exact ⟨x, rfl⟩
  | node op l r =>
      have := (stepsFinite_node.1 steps).2.2
      rw [← value_node, h] at this
      cases this

/-- Where the steps and the value are finite, every exposed part has a finite value. -/
theorem Exposed.isFinite (h : u.Exposed t) (steps : t.stepsFinite = true)
    (value : t.value.isFinite = true) : u.value.isFinite = true := by
  induction h with
  | whole => exact value
  | left _ ih =>
      obtain ⟨left, -, result⟩ := stepsFinite_node.1 steps
      exact ih left (Operator.isFinite_of_result result).1
  | right tight _ ih =>
      obtain ⟨-, right, result⟩ := stepsFinite_node.1 steps
      obtain finite | ⟨divide, -, -⟩ := (Operator.isFinite_of_result result).2
      · exact ih right finite
      · exact absurd divide tight

theorem IsTerm.stepsFinite (ht : t.IsTerm)
    (h : ∀ u : Tree, u.Exposed t → u.value.isFinite = true) : t.stepsFinite = true := by
  induction ht with
  | lone x => rfl
  | snoc x _ _ ih =>
      have result := h _ .whole
      rw [value_node] at result
      exact stepsFinite_node.2 ⟨ih fun u hu => h u hu.left, rfl, result⟩

/-- In a sum the divisors are operands, so that all steps are exposed. -/
theorem IsSum.stepsFinite (ht : t.IsSum)
    (h : ∀ u : Tree, u.Exposed t → u.value.isFinite = true) : t.stepsFinite = true := by
  induction ht with
  | term ht => exact ht.stepsFinite h
  | @snoc op l r hop _ hr ih =>
      have loose : op ≠ .divide := by rcases hop with rfl | rfl <;> decide
      have result := h _ .whole
      rw [value_node] at result
      exact stepsFinite_node.2
        ⟨ih fun u hu => h u hu.left, hr.stepsFinite fun u hu => h u (hu.right loose), result⟩

/-- A part with a value that is not finite is an infinite divisor, and its quotient is
zero. -/
theorem Part.exists_divide (h : u.Part t) (steps : t.stepsFinite = true)
    (value : t.value.isFinite = true) (hidden : u.value.isFinite = false) :
    ∃ l x, u = operand x ∧ (node .divide l u).Part t ∧ l.value.isFinite = true ∧
      x.isInf = true ∧ ((node .divide l u).value == 0.0) = true := by
  induction h with
  | whole =>
      rw [value] at hidden
      cases hidden
  | left _ ih =>
      obtain ⟨left, -, result⟩ := stepsFinite_node.1 steps
      obtain ⟨l, x, lone, part, rest⟩ := ih left (Operator.isFinite_of_result result).1
      exact ⟨l, x, lone, part.left, rest⟩
  | @right op l r part ih =>
      obtain ⟨-, right, result⟩ := stepsFinite_node.1 steps
      obtain ⟨dividend, divisor⟩ := Operator.isFinite_of_result result
      cases finite : r.value.isFinite with
      | true =>
          obtain ⟨l, x, lone, part, rest⟩ := ih right finite
          exact ⟨l, x, lone, part.right, rest⟩
      | false =>
          rw [finite] at divisor
          obtain ⟨rfl, infinite, zero⟩ := divisor.resolve_left Bool.false_ne_true
          -- such a divisor is an operand, and has no other part
          obtain ⟨x, rfl⟩ := exists_operand right finite
          cases part
          exact ⟨l, x, rfl, .whole, dividend, infinite, zero⟩

/-- **The outcome of a sum is its value** iff every exposed part has a finite value. -/
theorem IsSum.outcome_eq_ok_iff (ht : t.IsSum) {v : Float} : t.outcome = .ok v ↔
    t.value = v ∧ ∀ u : Tree, u.Exposed t → u.value.isFinite = true := by
  unfold outcome
  constructor
  · intro h
    split at h
    · rename_i finite
      obtain ⟨steps, value⟩ := Bool.and_eq_true_iff.1 finite
      exact ⟨Except.ok.inj h, fun u hu => hu.isFinite steps value⟩
    · cases h
  · rintro ⟨rfl, exposed⟩
    rw [if_pos (Bool.and_eq_true_iff.2 ⟨ht.stepsFinite exposed, exposed t .whole⟩)]

/-- **It is not finite** iff an exposed part is not. -/
theorem IsSum.outcome_eq_error_iff (ht : t.IsSum) : t.outcome = .error .nonFinite ↔
    ∃ u : Tree, u.Exposed t ∧ u.value.isFinite = false := by
  have other : t.outcome = .error .nonFinite ↔ t.outcome ≠ .ok t.value := by
    unfold outcome
    split <;> simp
  rw [other, ne_eq, ht.outcome_eq_ok_iff]
  simp

end Tree

/-! ### Texts -/

open HeartKeypad.Tree (operand node)

namespace Expression

/-- **An infinity hides in a divisor and nowhere else.**  A text has a value iff every part
of its tree that is not in a divisor has a finite one, and its result is reported as not
finite iff one of them has not.  A part of a text with a value is finite too, unless it is a
literal divisor: then it is an infinity, and the quotient is zero. -/
theorem infinite_only_as_divisor {s : Text} {t : Tree} (h : Spells s t.chain) (ht : t.IsSum) :
    (∀ v, evaluate s = .ok v ↔
      t.value = v ∧ ∀ u : Tree, u.Exposed t → u.value.isFinite = true) ∧
    (evaluate s = .error .nonFinite ↔ ∃ u : Tree, u.Exposed t ∧ u.value.isFinite = false) ∧
    ∀ v, evaluate s = .ok v → ∀ u : Tree, u.Part t → u.value.isFinite = false →
      ∃ l x, u = operand x ∧ (node .divide l u).Part t ∧ l.value.isFinite = true ∧
        x.isInf = true ∧ ((node .divide l u).value == 0.0) = true := by
  rw [evaluate_of_spells h, ht.value_chain]
  refine ⟨fun v => ht.outcome_eq_ok_iff, ht.outcome_eq_error_iff, fun v ok u hu hidden => ?_⟩
  obtain ⟨-, exposed⟩ := ht.outcome_eq_ok_iff.1 ok
  exact hu.exists_divide (ht.stepsFinite exposed) (exposed t .whole) hidden

/-- A one divided by a one with 309 zeros behind it. -/
def byTooLarge : Text := '1' :: '÷' :: '1' :: List.replicate 309 '0'

/-- The divisor is read as an infinity. -/
theorem spells_byTooLarge :
    Spells byTooLarge (node .divide (operand 1.0) (operand (1.0 / 0.0))).chain :=
  parse_eq_ok_iff.1 (by decide +kernel)

theorem isSum_quotient (x y : Float) : (node .divide (operand x) (operand y)).IsSum :=
  .term (.snoc y (Or.inr rfl) (.lone x))

/-- The infinite divisor hides: the quotient has a value, and the divisor is a part of it
that is not finite. -/
theorem infinite_divisor_hides : evaluate byTooLarge = .ok 0.0 ∧
    ∃ l x, operand (1.0 / 0.0) = operand x ∧
      (node .divide l (operand (1.0 / 0.0))).Part
        (node .divide (operand 1.0) (operand (1.0 / 0.0))) ∧
      l.value.isFinite = true ∧ x.isInf = true ∧
      ((node .divide l (operand (1.0 / 0.0))).value == 0.0) = true := by
  obtain ⟨value, -, parts⟩ := infinite_only_as_divisor spells_byTooLarge (isSum_quotient _ _)
  have ok : evaluate byTooLarge = .ok 0.0 := by
    refine (value 0.0).2 ⟨by decide, fun u hu => ?_⟩
    cases hu with
    | whole => decide
    | left hu => cases hu; decide
    | right other _ => exact absurd rfl other
  exact ⟨ok, parts 0.0 ok _ (.right .whole) (by decide)⟩

/-- Not every part of a text with a value is finite. -/
theorem not_all_parts_finite : ¬ ∀ (s : Text) (t : Tree) (v : Float),
    Spells s t.chain → t.IsSum → evaluate s = .ok v →
      v.isFinite = true ∧ ∀ u : Tree, u.Part t → u.value.isFinite = true := by
  intro all
  have ok : evaluate byTooLarge = .ok 0.0 := by decide +kernel
  have divisor := (all _ _ _ spells_byTooLarge (isSum_quotient _ _) ok).2 _ (.right .whole)
  revert divisor
  decide

end Expression

end HeartKeypad
