import HeartKeypad.Expression.Value
import Mathlib.Logic.ExistsUnique

/-!
# Chains as precedence trees

The value of a chain is computed in two passes over lists.  Here it is compared with
the tree that the usual precedence gives to the chain: a sum is a chain of terms with
`+` and `-` between them, a term is a chain of operands with `×` and `÷` between them,
and both group to the left.

* `Tree.IsSum` — the trees of this form; `Tree.chain` reads one from left to right.
* `Tree.existsUnique_isSum` — every chain is read from exactly one such tree.
* `Tree.outcome` — the value of a tree, unless the result of an operator or the value
  itself is not finite.
* `Tree.IsSum.value_chain` — the two passes compute the outcome of the tree.

### Why the passes agree with the tree

Reading a node puts the right side behind the left one, so both passes are followed
through an append.  A loose operator splits the first pass into two independent ones
(`Chain.products_append`), and inside a term the first pass is a plain total
(`Chain.products_eq_total`).  The first pass may meet a fault of a later term before
the second pass meets one of an earlier sum; there is only one such fault, so the
order does not show.
-/

namespace HeartKeypad

/-- An expression as a tree of operators over operands. -/
inductive Tree where
  | operand (x : Float)
  | node (op : Operator) (left right : Tree)

namespace Tree

/-- The value of a tree, with no test on the way. -/
def value : Tree → Float
  | operand x => x
  | node .add l r => l.value + r.value
  | node .subtract l r => l.value - r.value
  | node .multiply l r => l.value * r.value
  | node .divide l r => l.value / r.value

/-- The result of every operator in the tree is finite. -/
def stepsFinite : Tree → Bool
  | operand _ => true
  | node op l r => l.stepsFinite && r.stepsFinite && (node op l r).value.isFinite

/-- **The outcome of a tree**: its value, unless the result of an operator or the value
itself is not finite. -/
def outcome (t : Tree) : Except EvalFault Float :=
  if t.stepsFinite && t.value.isFinite then .ok t.value else .error .nonFinite

/-- The operands and operators of a tree, from left to right. -/
def chain : Tree → Chain
  | operand x => ⟨x, []⟩
  | node op l r => ⟨l.chain.first, l.chain.rest ++ (op, r.chain.first) :: r.chain.rest⟩

/-- **A term**: operands with `×` and `÷` between them, grouped to the left. -/
inductive IsTerm : Tree → Prop
  | lone (x : Float) : IsTerm (operand x)
  | snoc {op : Operator} {l : Tree} (x : Float) : op = .multiply ∨ op = .divide →
      IsTerm l → IsTerm (node op l (operand x))

/-- **A sum**: terms with `+` and `-` between them, grouped to the left. -/
inductive IsSum : Tree → Prop
  | term {t : Tree} : IsTerm t → IsSum t
  | snoc {op : Operator} {l r : Tree} : op = .add ∨ op = .subtract →
      IsSum l → IsTerm r → IsSum (node op l r)

/-! ### The tree of a chain -/

/-- The tree with one more operand at its right end: a tight operator takes the last
term for its left side, a loose one the whole tree. -/
def extend (t : Tree) (op : Operator) (x : Float) : Tree :=
  match t with
  | operand y => node op (operand y) (operand x)
  | node o l r =>
    -- behind a loose operator stands the last term, in front of it the rest of the sum
    if op.isTight && !o.isTight then node o l (node op r (operand x))
    else node op (node o l r) (operand x)

/-- The tree with more operands at its right end. -/
def extendAll (t : Tree) (rest : List (Operator × Float)) : Tree :=
  rest.foldl (fun t p => t.extend p.1 p.2) t

theorem isTight_iff {op : Operator} : op.isTight = true ↔ op = .multiply ∨ op = .divide := by
  cases op <;> simp [Operator.isTight]

theorem isTight_eq_false_iff {op : Operator} :
    op.isTight = false ↔ op = .add ∨ op = .subtract := by
  cases op <;> simp [Operator.isTight]

theorem extend_loose {op : Operator} (h : op.isTight = false) (t : Tree) (x : Float) :
    t.extend op x = node op t (operand x) := by
  cases t <;> simp [extend, h]

theorem IsTerm.extend_eq {t : Tree} (ht : t.IsTerm) (op : Operator) (x : Float) :
    t.extend op x = node op t (operand x) := by
  cases ht with
  | lone y => rfl
  | snoc y ho _ => simp [extend, isTight_iff.2 ho]

theorem extend_node_loose {op o : Operator} (h : op.isTight = true) (ho : o.isTight = false)
    (l r : Tree) (x : Float) :
    (node o l r).extend op x = node o l (node op r (operand x)) := by
  simp [extend, h, ho]

theorem IsSum.isSum_extend {t : Tree} (ht : t.IsSum) (op : Operator) (x : Float) :
    (t.extend op x).IsSum := by
  cases hop : op.isTight with
  | false =>
      rw [extend_loose hop]
      exact .snoc (isTight_eq_false_iff.1 hop) ht (.lone x)
  | true =>
      cases ht with
      | term ht =>
          rw [ht.extend_eq]
          exact .term (.snoc x (isTight_iff.1 hop) ht)
      | snoc ho hl hr =>
          -- only the last term grows
          rw [extend_node_loose hop (isTight_eq_false_iff.2 ho)]
          exact .snoc ho hl (.snoc x (isTight_iff.1 hop) hr)

theorem IsSum.chain_extend {t : Tree} (ht : t.IsSum) (op : Operator) (x : Float) :
    (t.extend op x).chain = ⟨t.chain.first, t.chain.rest ++ [(op, x)]⟩ := by
  cases hop : op.isTight with
  | false =>
      rw [extend_loose hop]
      rfl
  | true =>
      cases ht with
      | term ht =>
          rw [ht.extend_eq]
          rfl
      | snoc ho hl hr =>
          rw [extend_node_loose hop (isTight_eq_false_iff.2 ho)]
          simp [chain]

/-- Extending a sum keeps it a sum, and reads the new operands behind the old ones. -/
theorem IsSum.isSum_extendAll {t : Tree} (ht : t.IsSum) (rest : List (Operator × Float)) :
    (t.extendAll rest).IsSum ∧
      (t.extendAll rest).chain = ⟨t.chain.first, t.chain.rest ++ rest⟩ := by
  induction rest generalizing t with
  | nil => exact ⟨ht, by simp [Tree.extendAll]⟩
  | cons p rest ih =>
      obtain ⟨isSum, chain⟩ := ih (ht.isSum_extend p.1 p.2)
      refine ⟨isSum, ?_⟩
      rw [ht.chain_extend] at chain
      simpa [Tree.extendAll] using chain

/-- A term is rebuilt from what is read from it. -/
theorem IsTerm.extendAll_chain {t : Tree} (ht : t.IsTerm) :
    (operand t.chain.first).extendAll t.chain.rest = t := by
  induction ht with
  | lone x => rfl
  | @snoc op l x hop hl ih =>
      rw [extendAll] at ih
      rw [extendAll, chain, List.foldl_append, ih, chain, List.foldl_cons, List.foldl_nil,
        hl.extend_eq]

/-- Behind a loose operator a term is rebuilt in its place. -/
theorem IsTerm.extendAll_right {o : Operator} (ho : o.isTight = false) (l : Tree) {r : Tree}
    (hr : r.IsTerm) :
    (node o l (operand r.chain.first)).extendAll r.chain.rest = node o l r := by
  induction hr with
  | lone x => rfl
  | @snoc op r x hop hr ih =>
      rw [extendAll] at ih
      rw [extendAll, chain, List.foldl_append, ih, chain, List.foldl_cons, List.foldl_nil,
        extend_node_loose (isTight_iff.2 hop) ho]

/-- A sum is rebuilt from what is read from it. -/
theorem IsSum.extendAll_chain {t : Tree} (ht : t.IsSum) :
    (operand t.chain.first).extendAll t.chain.rest = t := by
  induction ht with
  | term ht => exact ht.extendAll_chain
  | @snoc op l r hop hl hr ih =>
      -- the loose operator starts a term, which is then rebuilt behind the finished sum
      have loose := isTight_eq_false_iff.2 hop
      have rebuilt := hr.extendAll_right loose l
      rw [extendAll] at ih rebuilt
      rw [extendAll, chain, List.foldl_append, ih, List.foldl_cons, extend_loose loose, rebuilt]

/-- **Every chain has one precedence tree.** -/
theorem existsUnique_isSum (c : Chain) : ∃! t : Tree, t.IsSum ∧ t.chain = c := by
  have lone : (operand c.first).IsSum := .term (.lone c.first)
  obtain ⟨isSum, chain⟩ := lone.isSum_extendAll c.rest
  refine ⟨_, ⟨isSum, by rw [chain]; rfl⟩, ?_⟩
  rintro t ⟨ht, rfl⟩
  exact ht.extendAll_chain.symm

/-! ### The value of a tree -/

theorem value_node (op : Operator) (l r : Tree) :
    (node op l r).value = op.result l.value r.value := by
  cases op <;> rfl

/-- The value of a tree, unless the result of an operator is not finite. -/
def computed (t : Tree) : Except EvalFault Float :=
  if t.stepsFinite then .ok t.value else .error .nonFinite

/-- A node is computed once its sides are. -/
theorem computed_node (op : Operator) (l r : Tree) :
    (node op l r).computed = (do
      let x ← l.computed
      let y ← r.computed
      op.apply x y) := by
  simp only [computed, stepsFinite, value_node]
  cases l.stepsFinite with
  | false => rfl
  | true =>
      cases r.stepsFinite with
      | false => rfl
      | true => rfl

theorem outcome_eq (t : Tree) : t.outcome = t.computed >>= EvalFault.finite := by
  simp only [outcome, computed]
  cases t.stepsFinite with
  | false => rfl
  | true => rfl

end Tree

/-! ### The two passes over a chain -/

namespace Chain

theorem total_append (x : Float) (as bs : List (Operator × Float)) :
    total x (as ++ bs) = total x as >>= fun z => total z bs := by
  induction as generalizing x with
  | nil => rfl
  | cons p as ih =>
      rw [List.cons_append, total, total, bind_assoc]
      exact bind_congr fun z => ih z

/-- A loose operator splits the first pass. -/
theorem products_append {op : Operator} (hop : op.isTight = false) (x y : Float)
    (as bs : List (Operator × Float)) :
    products x (as ++ (op, y) :: bs) = (do
      let c ← products x as
      let d ← products y bs
      .ok ⟨c.first, c.rest ++ (op, d.first) :: d.rest⟩) := by
  induction as generalizing x with
  | nil => simp [products, hop, bind, Except.bind]
  | cons p as ih =>
      rw [List.cons_append, products, products]
      split
      · rw [bind_assoc]
        exact bind_congr fun z => ih z
      · rw [ih, bind_assoc, bind_assoc]
        refine bind_congr fun c => ?_
        rw [bind_assoc]
        rfl

/-- Where all operators are tight, the first pass leaves a single term. -/
theorem products_eq_total {x : Float} {as : List (Operator × Float)}
    (h : ∀ p ∈ as, p.1.isTight = true) :
    products x as = total x as >>= fun z => .ok ⟨z, []⟩ := by
  induction as generalizing x with
  | nil => rfl
  | cons p as ih =>
      rw [products, if_pos (h p (by simp)), total, bind_assoc]
      exact bind_congr fun z => ih fun q hq => h q (List.mem_cons_of_mem _ hq)

end Chain

namespace Tree

theorem IsTerm.tight {t : Tree} (ht : t.IsTerm) : ∀ p ∈ t.chain.rest, p.1.isTight = true := by
  induction ht with
  | lone x => simp [chain]
  | snoc x hop hl ih =>
      intro p hp
      rcases List.mem_append.1 hp with hp | hp
      · exact ih p hp
      · rw [List.mem_singleton.1 hp]
        exact isTight_iff.2 hop

theorem IsTerm.total_chain {t : Tree} (ht : t.IsTerm) :
    Chain.total t.chain.first t.chain.rest = t.computed := by
  induction ht with
  | lone x => rfl
  | @snoc op l x hop hl ih =>
      rw [computed_node, chain, Chain.total_append, ih]
      refine bind_congr fun z => ?_
      show (op.apply z x >>= fun y => .ok y) = op.apply z x
      exact bind_pure _

theorem IsTerm.products_chain {t : Tree} (ht : t.IsTerm) :
    Chain.products t.chain.first t.chain.rest = t.computed >>= fun z => .ok ⟨z, []⟩ := by
  rw [Chain.products_eq_total ht.tight, ht.total_chain]

/-- The only fault of a computed tree is a result that is not finite. -/
theorem computed_eq_error {t : Tree} {e : EvalFault} (h : t.computed = .error e) :
    e = .nonFinite := by
  unfold computed at h
  split at h
  · cases h
  · cases h
    rfl

/-- **Both passes together compute the tree.** -/
theorem IsSum.total_products {t : Tree} (ht : t.IsSum) :
    (Chain.products t.chain.first t.chain.rest >>= fun c => Chain.total c.first c.rest) =
      t.computed := by
  induction ht with
  | term ht =>
      rw [ht.products_chain, bind_assoc]
      exact bind_pure _
  | @snoc op l r hop hl hr ih =>
      rw [chain, Chain.products_append (isTight_eq_false_iff.2 hop), hr.products_chain,
        computed_node, ← ih]
      cases hp : Chain.products l.chain.first l.chain.rest with
      | error e => rfl
      | ok c =>
          rw [hp] at ih
          cases hc : r.computed with
          | error e =>
              -- the fault of the right term comes before any of the left sum
              obtain rfl := computed_eq_error hc
              have left : Chain.total c.first c.rest = l.computed := ih
              show Except.error EvalFault.nonFinite =
                (Chain.total c.first c.rest >>= fun _ => Except.error EvalFault.nonFinite)
              cases hl : Chain.total c.first c.rest with
              | ok z => rfl
              | error e => exact (congrArg Except.error (computed_eq_error (left ▸ hl))).symm
          | ok y =>
              -- the right term is done, and the second pass takes it as its last operand
              show Chain.total c.first (c.rest ++ [(op, y)]) =
                (Chain.total c.first c.rest >>= fun x => op.apply x y)
              rw [Chain.total_append]
              refine bind_congr fun x => ?_
              rw [Chain.total]
              exact bind_pure _

/-- **The value of a chain is the outcome of its tree.** -/
theorem IsSum.value_chain {t : Tree} (ht : t.IsSum) : t.chain.value = t.outcome := by
  rw [outcome_eq, ← ht.total_products, bind_assoc]
  rfl

end Tree

end HeartKeypad
