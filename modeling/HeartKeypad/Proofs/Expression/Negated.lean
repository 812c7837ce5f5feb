import HeartKeypad.Expression.Result
import HeartKeypad.Expression.Value
import HeartKeypad.Proofs.Except
import HeartKeypad.Proofs.Number.Negation

/-!
# Chains that start with a negated operand

`0-2×3` is a difference and `-2×3` a product, and both have the same value.  Here a zero and a
minus in front of a chain are left out, and the first operand is multiplied by `-1` instead.

* `Chain.products_mirror` — turning the sign of the first operand turns that of the first
  term, and changes nothing else.
* `Chain.total_alike` — a sum from the other zero is the same sum, or the other zero.
* `Chain.value_zero_subtract` — the two chains have the same value, up to the sign of a zero.
* `Result.format_alike` — which does not show on the display.
-/

namespace HeartKeypad

open Double (Mirror Alike)

/-! ### Computations that succeed -/

theorem EvalFault.finite_eq_ok_iff {x y : Float} :
    finite x = .ok y ↔ x = y ∧ y.isFinite = true := by
  unfold finite
  constructor
  · intro h
    split at h
    · cases h
      exact ⟨rfl, ‹_›⟩
    · cases h
  · rintro ⟨rfl, finite⟩
    rw [if_pos finite]

namespace Operator

variable {op : Operator} {x y z w : Float}

theorem apply_eq_ok_iff : op.apply x y = .ok z ↔ op.result x y = z ∧ z.isFinite = true :=
  EvalFault.finite_eq_ok_iff

end Operator

namespace Chain

variable {x : Float} {rest : List (Operator × Float)} {c : Chain}

theorem value_eq_ok_iff {v : Float} : c.value = .ok v ↔ ∃ terms,
    products c.first c.rest = .ok terms ∧ total terms.first terms.rest = .ok v ∧
      v.isFinite = true := by
  rw [value, bind_eq_ok_iff]
  refine exists_congr fun terms => and_congr_right fun _ => ?_
  rw [bind_eq_ok_iff]
  constructor
  · rintro ⟨sum, hsum, finite⟩
    obtain ⟨rfl, finite⟩ := EvalFault.finite_eq_ok_iff.1 finite
    exact ⟨hsum, finite⟩
  · rintro ⟨hsum, finite⟩
    exact ⟨v, hsum, EvalFault.finite_eq_ok_iff.2 ⟨rfl, finite⟩⟩

theorem total_cons {op : Operator} {z v : Float} : total x ((op, z) :: rest) = .ok v ↔
    ∃ w, op.apply x z = .ok w ∧ total w rest = .ok v :=
  bind_eq_ok_iff

theorem products_cons_tight {op : Operator} (tight : op.isTight = true) {z : Float} :
    products x ((op, z) :: rest) = .ok c ↔
      ∃ w, op.apply x z = .ok w ∧ products w rest = .ok c := by
  rw [products, if_pos tight]
  exact bind_eq_ok_iff

theorem products_cons_loose {op : Operator} (loose : op.isTight = false) {z : Float} :
    products x ((op, z) :: rest) = .ok c ↔
      ∃ d, products z rest = .ok d ∧ c = ⟨x, (op, d.first) :: d.rest⟩ := by
  rw [products, loose]
  simp only [Bool.false_eq_true, if_false]
  constructor
  · intro h
    obtain ⟨d, hd, h⟩ := bind_eq_ok_iff.1 h
    cases h
    exact ⟨d, hd, rfl⟩
  · rintro ⟨d, hd, rfl⟩
    exact bind_eq_ok_iff.2 ⟨d, hd, rfl⟩

end Chain

/-! ### Operators -/

namespace Operator

variable {op : Operator} {x y z w : Float}

/-- Products and quotients of mirrored doubles are mirrored. -/
theorem apply_mirror (tight : op.isTight = true) (h : Mirror x y) (hz : op.apply x z = .ok w) :
    ∃ w', op.apply y z = .ok w' ∧ Mirror w w' := by
  obtain ⟨rfl, finite⟩ := apply_eq_ok_iff.1 hz
  have mirror : Mirror (op.result x z) (op.result y z) := by
    cases op with
    | multiply => exact h.mul z
    | divide => exact h.div z
    | add => cases tight
    | subtract => cases tight
  exact ⟨_, apply_eq_ok_iff.2 ⟨rfl, mirror.isFinite.trans finite⟩, mirror⟩

/-- Sums and differences of alike doubles are alike. -/
theorem apply_alike (loose : op.isTight = false) (h : Alike x y) (hz : op.apply x z = .ok w) :
    ∃ w', op.apply y z = .ok w' ∧ Alike w w' := by
  obtain ⟨rfl, finite⟩ := apply_eq_ok_iff.1 hz
  have alike : Alike (op.result x z) (op.result y z) := by
    cases op with
    | add => exact h.add z
    | subtract => exact h.sub z
    | multiply => cases loose
    | divide => cases loose
  exact ⟨_, apply_eq_ok_iff.2 ⟨rfl, alike.isFinite.trans finite⟩, alike⟩

end Operator

/-! ### The two passes -/

namespace Chain

variable {x y : Float} {rest : List (Operator × Float)} {c : Chain}

/-- After the first pass only loose operators are left. -/
theorem loose_of_products (h : products x rest = .ok c) : ∀ p ∈ c.rest, p.1.isTight = false := by
  induction rest generalizing x c with
  | nil =>
      cases h
      exact fun _ hp => nomatch hp
  | cons p rest ih =>
      obtain ⟨op, z⟩ := p
      cases tight : op.isTight with
      | true =>
          obtain ⟨w, -, h⟩ := (products_cons_tight tight).1 h
          exact ih h
      | false =>
          obtain ⟨d, hd, rfl⟩ := (products_cons_loose tight).1 h
          exact List.forall_mem_cons.2 ⟨tight, ih hd⟩

/-- **The sign of the first operand is carried to the end of the first term**, and no
further. -/
theorem products_mirror (m : Mirror x y) (h : products x rest = .ok c) :
    ∃ y', products y rest = .ok ⟨y', c.rest⟩ ∧ Mirror c.first y' := by
  induction rest generalizing x y c with
  | nil =>
      cases h
      exact ⟨y, rfl, m⟩
  | cons p rest ih =>
      obtain ⟨op, z⟩ := p
      cases tight : op.isTight with
      | true =>
          obtain ⟨w, hw, h⟩ := (products_cons_tight tight).1 h
          obtain ⟨w', hw', mirror⟩ := Operator.apply_mirror tight m hw
          obtain ⟨y', h', last⟩ := ih mirror h
          exact ⟨y', (products_cons_tight tight).2 ⟨w', hw', h'⟩, last⟩
      | false =>
          obtain ⟨d, hd, rfl⟩ := (products_cons_loose tight).1 h
          exact ⟨y, (products_cons_loose tight).2 ⟨d, hd, rfl⟩, m⟩

/-- Sums from alike doubles are alike. -/
theorem total_alike (loose : ∀ p ∈ rest, p.1.isTight = false) (a : Alike x y) {v : Float}
    (h : total x rest = .ok v) : ∃ w, total y rest = .ok w ∧ Alike v w := by
  induction rest generalizing x y with
  | nil =>
      cases h
      exact ⟨y, rfl, a⟩
  | cons p rest ih =>
      obtain ⟨op, z⟩ := p
      obtain ⟨first, others⟩ := List.forall_mem_cons.1 loose
      obtain ⟨u, hu, h⟩ := total_cons.1 h
      obtain ⟨u', hu', alike⟩ := Operator.apply_alike first a hu
      obtain ⟨w, hw, last⟩ := ih others alike h
      exact ⟨w, total_cons.2 ⟨u', hu', hw⟩, last⟩

/-- **A zero in front of a minus can be left out.** -/
theorem value_zero_subtract {zero v : Float} (hzero : zero.toModel.unpack = .zero .positive)
    (h : (⟨zero, (.subtract, x) :: rest⟩ : Chain).value = .ok v) :
    ∃ w, (⟨-1.0 * x, rest⟩ : Chain).value = .ok w ∧ Alike v w := by
  obtain ⟨terms, hterms, hsum, finite⟩ := value_eq_ok_iff.1 h
  obtain ⟨c, hc, rfl⟩ := (products_cons_loose rfl).1 hterms
  obtain ⟨u, hu, hsum⟩ := total_cons.1 hsum
  obtain ⟨rfl, -⟩ := Operator.apply_eq_ok_iff.1 hu
  obtain ⟨y, hy, mirror⟩ := products_mirror (Double.mirror_neg_one_mul x) hc
  obtain ⟨w, hw, alike⟩ := total_alike (loose_of_products hc) (mirror.alike_zero_sub hzero) hsum
  exact ⟨w, value_eq_ok_iff.2 ⟨_, hy, hw, alike.isFinite.trans finite⟩, alike⟩

end Chain

/-! ### The display -/

/-- Alike doubles are shown by the same text. -/
theorem Result.format_alike {x y : Float} (h : Alike x y) (finite : x.isFinite = true) :
    format x = format y := by
  have values : Dyadic.ofFloat? x = Dyadic.ofFloat? y ∨
      ∃ a b, Dyadic.ofFloat? x = some ⟨a, 0, 0⟩ ∧ Dyadic.ofFloat? y = some ⟨b, 0, 0⟩ := by
    unfold Alike at h
    unfold Dyadic.ofFloat?
    generalize x.toModel.unpack = u at h
    generalize y.toModel.unpack = w at h
    cases h with
    | same => exact Or.inl rfl
    | zeros s t => exact Or.inr ⟨_, _, rfl, rfl⟩
  rcases values with same | ⟨a, b, hx, hy⟩
  · rw [← Dyadic.isSome_ofFloat?] at finite
    obtain ⟨d, hx⟩ := Option.isSome_iff_exists.1 finite
    have hy := same.symm.trans hx
    simp only [format, Written.fixed, hx, hy]
  · have whole (b : Bool) : (⟨b, 0, 0⟩ : Dyadic).isWhole = true := rfl
    simp only [format, hx, hy, whole, if_true]

end HeartKeypad
