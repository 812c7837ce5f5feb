import HeartKeypad.Expression.Columns
import HeartKeypad.Proofs.Number.Rounding

/-!
# Columns compute chains

A value that is computed in two columns, by index and by pairing, is the value of the chain.

* `Columns.Fits` — there is one operand more than operators; such columns are those of a chain.
* `Columns.Fits.exists_pairs` — pairing loses nothing then, and no index is out of bounds.
* `Columns.collect_eq` — the loop by index reads the chain that the recursion reads.
* `Columns.foldlM_step` — the first pass leaves the columns of the products of the chain.
* `Expression.evaluateColumns?_eq` — for every text there is a value in columns, and it is the
  value of the text.

### What the loops keep

The loop that reads has its operands and operators behind it, and each round adds one of each, so
what it has read stands in front of the columns of the rest (`Columns.append`).  The first pass has
finished terms behind it and works on the last one.  This is the operand that was added last, and a
tight operator takes the place of the operand it is carried out on (`Columns.step_tight`).  An early
exit is part of both equations, since they are about results and not about successes.
-/

namespace HeartKeypad

/-- A chain in two columns. -/
def Chain.columns (c : Chain) : Columns := ⟨c.first :: c.rest.map Prod.snd, c.rest.map Prod.fst⟩

namespace Columns

/-- **The columns fit**: there is one operand more than operators. -/
def Fits (c : Columns) : Prop := c.operands.length = c.operators.length + 1

/-- Columns behind others. -/
def append (c d : Columns) : Columns := ⟨c.operands ++ d.operands, c.operators ++ d.operators⟩

variable {c terms : Columns} {op : Operator} {s : Text} {x : Float}
  {rest : List (Operator × Float)} {ts : List Token} {t : Token}

/-! ### Columns that fit -/

theorem fits_columns (chain : Chain) : chain.columns.Fits := by
  simp [Fits, Chain.columns]

/-- **Columns that fit are those of a chain.** -/
theorem fits_iff : c.Fits ↔ ∃ chain : Chain, chain.columns = c := by
  constructor
  · intro fits
    obtain ⟨operands, operators⟩ := c
    cases operands with
    | nil => cases fits
    | cons x xs =>
        have same : operators.length = xs.length := by simpa [Fits] using fits.symm
        refine ⟨⟨x, operators.zip xs⟩, ?_⟩
        rw [Chain.columns, List.map_fst_zip (by omega), List.map_snd_zip (by omega)]
  · rintro ⟨chain, rfl⟩
    exact fits_columns chain

/-- What comes of a chain fits. -/
theorem fits_of_map {ε : Type} {r : Except ε Chain} (h : r.map Chain.columns = .ok c) :
    c.Fits := by
  cases r with
  | error fault => cases h
  | ok chain =>
      cases h
      exact fits_columns chain

/-- The pairs of a chain's columns are the chain. -/
theorem pairs?_columns (chain : Chain) :
    chain.columns.pairs? = some (chain.first, chain.rest) := by
  have pairs : (chain.rest.map Prod.fst).zip (chain.rest.map Prod.snd) = chain.rest :=
    (List.zip_of_prod rfl rfl).symm
  show some (chain.first, (chain.rest.map Prod.fst).zip (chain.columns.operands.drop 1)) = _
  rw [List.drop_one]
  exact congrArg (fun rest => some (chain.first, rest)) pairs

/-- **Pairing loses nothing where the columns fit**: no index is out of bounds, and the pairs hold
every operator and, behind the first one, every operand, in their order. -/
theorem Fits.exists_pairs (fits : c.Fits) : ∃ first rest, c.pairs? = some (first, rest) ∧
    first :: rest.map Prod.snd = c.operands ∧ rest.map Prod.fst = c.operators := by
  obtain ⟨chain, rfl⟩ := fits_iff.1 fits
  exact ⟨chain.first, chain.rest, pairs?_columns chain, rfl, rfl⟩

/-! ### In front of the rest -/

theorem append_lone (c : Columns) (x : Float) :
    c.append (⟨x, []⟩ : Chain).columns = c.addOperand x := by
  simp [append, Chain.columns, addOperand]

/-- An operand and an operator may be added to what stands in front. -/
theorem append_cons (c : Columns) (x : Float) (op : Operator) (chain : Chain) :
    c.append (⟨x, (op, chain.first) :: chain.rest⟩ : Chain).columns =
      ((c.addOperand x).addOperator op).append chain.columns := by
  simp [append, Chain.columns, addOperand, addOperator]

/-! ### Reading by index -/

theorem drop_of_getElem? {i : Nat} (h : ts[i]? = some t) : ts.drop i = t :: ts.drop (i + 1) := by
  obtain ⟨lt, rfl⟩ := List.getElem?_eq_some_iff.1 h
  exact List.drop_eq_getElem_cons lt

theorem drop_of_getElem?_none {i : Nat} (h : ts[i]? = none) : ts.drop i = [] :=
  List.drop_eq_nil_of_le (List.getElem?_eq_none_iff.1 h)

/-- **A sign that is read by index** is read by the recursion as well, and where none is read, no
minus stands.  A factor of one is no factor. -/
theorem exists_sign (ts : List Token) (index : Nat) : ∃ minus,
    (∀ x, (signAt ts index).1 * x = Chain.signed minus x) ∧
    (minus = false → ts[(signAt ts index).2]? ≠ some (.operator .subtract)) ∧
    Chain.ofTokensFrom false index (ts.drop index) =
      Chain.ofTokensFrom minus (signAt ts index).2 (ts.drop (signAt ts index).2) := by
  unfold signAt
  split
  · rename_i found
    refine ⟨true, fun x => rfl, nofun, ?_⟩
    rw [drop_of_getElem? found]
    rfl
  · rename_i none
    exact ⟨false, Double.one_mul_eq, fun _ => none, rfl⟩

/-- **An operand is missing where no number stands**, unless a minus stands there that may still
be a sign. -/
theorem ofTokensFrom_of_no_number {minus : Bool} {i : Nat}
    (noNumber : ∀ x, ts[i]? = some (.number x) → False)
    (unsigned : minus = false → ts[i]? ≠ some (.operator .subtract)) :
    Chain.ofTokensFrom minus i (ts.drop i) = .error (.missingOperand i) := by
  cases found : ts[i]? with
  | none =>
      rw [drop_of_getElem?_none found]
      rfl
  | some t =>
      rw [drop_of_getElem? found]
      cases t with
      | number x => exact (noNumber x found).elim
      | operator op =>
          cases op with
          | subtract =>
              cases minus with
              | false => exact absurd found (unsigned rfl)
              -- a second minus is no operand
              | true => rfl
          | add => rfl
          | multiply => rfl
          | divide => rfl

/-- **The loop by index reads the chain of the tokens** from the index on, and puts its columns
behind those that it has; or it fails with the same fault. -/
theorem collect_eq (ts : List Token) (index : Nat) (c : Columns) :
    collect ts index c =
      (Chain.ofTokensFrom false index (ts.drop index)).map fun d => c.append d.columns := by
  fun_induction collect ts index c with
  | case1 index c x found c' none =>
      obtain ⟨minus, signed, -, start⟩ := exists_sign ts index
      have added : c' = c.addOperand (Chain.signed minus x) := congrArg c.addOperand (signed x)
      rw [start, drop_of_getElem? found, drop_of_getElem?_none none, added]
      exact congrArg Except.ok (c.append_lone _).symm
  | case2 index c x found c' op next ih =>
      obtain ⟨minus, signed, -, start⟩ := exists_sign ts index
      have added : c' = c.addOperand (Chain.signed minus x) := congrArg c.addOperand (signed x)
      rw [start, drop_of_getElem? found, drop_of_getElem? next, ih, Chain.ofTokensFrom, added]
      cases Chain.ofTokensFrom false ((signAt ts index).2 + 2)
          (ts.drop ((signAt ts index).2 + 2)) with
      | error fault => rfl
      | ok chain => exact congrArg Except.ok (c.append_cons _ op chain).symm
  | case3 index c x found y next =>
      obtain ⟨minus, -, -, start⟩ := exists_sign ts index
      rw [start, drop_of_getElem? found, drop_of_getElem? next]
      rfl
  | case4 index c other =>
      obtain ⟨minus, -, unsigned, start⟩ := exists_sign ts index
      rw [start, ofTokensFrom_of_no_number other unsigned]
      rfl

/-- **The columns of a text** are those of its chain. -/
theorem ofText_eq (s : Text) : ofText s = (Expression.parse s).map Chain.columns := by
  rw [ofText, Expression.parse]
  cases Token.ofText s with
  | error fault => rfl
  | ok ts =>
      cases ts with
      | nil => rfl
      | cons t ts => exact collect_eq (t :: ts) 0 ⟨[], []⟩

/-- **What is read fits**: there is an operand, and one more than there are operators. -/
theorem fits_of_ofText (h : ofText s = .ok c) : c.Fits :=
  fits_of_map ((ofText_eq s).symm.trans h)

/-! ### The two passes -/

/-- A tight operator is carried out on the operand that was added last. -/
theorem step_tight (tight : op.isTight = true) (c : Columns) (x y : Float) :
    (c.addOperand x).step (op, y) = (op.apply x y).map c.addOperand := by
  show (if op.isTight = true then _ else _) = _
  rw [if_pos tight, addOperand, List.getLast?_concat]
  show (op.apply x y >>= _) = _
  rw [List.dropLast_concat]
  cases op.apply x y <;> rfl

theorem step_loose (loose : ¬ op.isTight = true) (c : Columns) (y : Float) :
    c.step (op, y) = .ok ((c.addOperator op).addOperand y) := if_neg loose

/-- **The first pass leaves the products** of what is left, with the last term in front of it,
behind the terms that are finished. -/
theorem foldlM_step (finished : Columns) (x : Float) (rest : List (Operator × Float)) :
    rest.foldlM step (finished.addOperand x) =
      (Chain.products x rest).map fun terms => finished.append terms.columns := by
  induction rest generalizing finished x with
  | nil => exact congrArg Except.ok (finished.append_lone x).symm
  | cons p rest ih =>
      obtain ⟨op, y⟩ := p
      rw [List.foldlM_cons, Chain.products]
      split
      · rename_i tight
        rw [step_tight tight]
        cases op.apply x y with
        | error fault => rfl
        | ok z => exact ih finished z
      · -- the last term is finished, and the next one starts
        rename_i loose
        rw [step_loose loose]
        refine (ih ((finished.addOperand x).addOperator op) y).trans ?_
        cases Chain.products y rest with
        | error fault => rfl
        | ok terms => exact congrArg Except.ok (finished.append_cons x op terms).symm

theorem products_eq (x : Float) (rest : List (Operator × Float)) :
    products x rest = (Chain.products x rest).map Chain.columns :=
  foldlM_step ⟨[], []⟩ x rest

/-- The terms fit the operators that are left between them. -/
theorem fits_of_products (h : products x rest = .ok terms) : terms.Fits :=
  fits_of_map ((products_eq x rest).symm.trans h)

theorem total_eq (x : Float) (rest : List (Operator × Float)) :
    total x rest = Chain.total x rest := by
  induction rest generalizing x with
  | nil => rfl
  | cons p rest ih =>
      rw [total, List.foldlM_cons, Chain.total]
      exact bind_congr ih

/-- **The columns of a chain have its value**; no index is out of bounds. -/
theorem value?_columns (chain : Chain) : chain.columns.value? = some chain.value := by
  simp only [value?, Chain.value, pairs?_columns, products_eq, Option.bind_eq_bind,
    Option.bind_some]
  cases Chain.products chain.first chain.rest with
  | error fault => rfl
  | ok terms =>
      show (terms.columns.pairs?.bind _) = _
      rw [pairs?_columns]
      show some (total terms.first terms.rest >>= _) = _
      rw [total_eq]
      rfl

end Columns

/-- **Every text is evaluated in columns, to its value or to its fault.** -/
theorem Expression.evaluateColumns?_eq (s : Text) : evaluateColumns? s = some (evaluate s) := by
  rw [evaluateColumns?, Columns.ofText_eq, evaluate]
  cases parse s with
  | error fault => rfl
  | ok chain => exact Columns.value?_columns chain

end HeartKeypad
