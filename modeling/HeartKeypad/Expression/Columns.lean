import HeartKeypad.Expression.Value

/-!
# Expressions in two columns

A chain keeps each operator with the operand behind it.  Here the operands and the operators stand
in two lists, and the loop that reads the tokens works by index, as do the two passes that compute
a value: they take the first operand, pair the operators with the operands from the second one on,
and leave the terms, and the operators between them, in two lists again.

Nothing about two lists says that there is one operand more than operators.  If there were fewer,
`List.zip` would drop what has no partner without a word, and with no operand at all an index would
be out of bounds, for which the value is `none`.

* `Columns.collect` — the columns of tokens, from an index on.
* `Columns.step`, `Columns.value?` — the two passes.
* `Expression.evaluateColumns?` — the value of a text, computed in columns.
-/

namespace HeartKeypad

/-- Operands, and the operators between them. -/
structure Columns where
  operands : List Float
  operators : List Operator
deriving DecidableEq

namespace Columns

/-- One operand more. -/
def addOperand (c : Columns) (x : Float) : Columns := { c with operands := c.operands ++ [x] }

/-- One operator more. -/
def addOperator (c : Columns) (op : Operator) : Columns :=
  { c with operators := c.operators ++ [op] }

/-! ### Reading -/

/-- The sign of the operand that is expected at an index, and the index behind the sign. -/
def signAt (ts : List Token) (index : Nat) : Float × Nat :=
  match ts[index]? with
  | some (.operator .subtract) => (-1.0, index + 1)
  | _ => (1.0, index)

theorem le_signAt (ts : List Token) (index : Nat) : index ≤ (signAt ts index).2 := by
  unfold signAt
  split
  · exact Nat.le_succ index
  · exact Nat.le_refl index

/-- Reads operands and operators from an index on, behind those that have been read. -/
def collect (ts : List Token) (index : Nat) (c : Columns) : Except ParseFault Columns :=
  match ts[(signAt ts index).2]? with
  | some (.number x) =>
    let c := c.addOperand ((signAt ts index).1 * x)
    match found : ts[(signAt ts index).2 + 1]? with
    | none => .ok c
    | some (.operator op) => collect ts ((signAt ts index).2 + 2) (c.addOperator op)
    | some (.number _) => .error (.missingOperand ((signAt ts index).2 + 1))
  | _ => .error (.missingOperand (signAt ts index).2)
termination_by ts.length - index
decreasing_by
  have le := le_signAt ts index
  obtain ⟨lt, -⟩ := List.getElem?_eq_some_iff.1 found
  omega

/-- The columns of a text. -/
def ofText (s : Text) : Except ParseFault Columns := do
  let ts ← Token.ofText s
  if ts.isEmpty then .error .empty else collect ts 0 ⟨[], []⟩

/-! ### Computing -/

/-- A list from an index on, unless the index is behind its end. -/
def from? (n : Nat) (xs : List Float) : Option (List Float) :=
  if n ≤ xs.length then some (xs.drop n) else none

/-- The first operand, and the operators paired with the operands behind it. -/
def pairs? (c : Columns) : Option (Float × List (Operator × Float)) := do
  let first ← c.operands[0]?
  let behind ← from? 1 c.operands
  some (first, c.operators.zip behind)

/-- One step of the first pass, on the terms so far and the operators between them: a tight
operator is carried out on the last term, if there is one, and a loose one starts a term. -/
def step (terms : Columns) (p : Operator × Float) : Except EvalFault Columns :=
  if p.1.isTight then
    match terms.operands.getLast? with
    | some y => do
      let z ← p.1.apply y p.2
      .ok { terms with operands := terms.operands.dropLast ++ [z] }
    | none => .ok terms
  else .ok ((terms.addOperator p.1).addOperand p.2)

/-- The first pass: the terms, and the operators between them. -/
def products (first : Float) (rest : List (Operator × Float)) : Except EvalFault Columns :=
  rest.foldlM step ⟨[first], []⟩

/-- The second pass: the operators are carried out from left to right. -/
def total (first : Float) (rest : List (Operator × Float)) : Except EvalFault Float :=
  rest.foldlM (fun x p => p.1.apply x p.2) first

/-- The value of columns, unless an index is out of bounds. -/
def value? (c : Columns) : Option (Except EvalFault Float) := do
  let (first, rest) ← c.pairs?
  match products first rest with
  | .error fault => some (.error fault)
  | .ok terms => do
    let (first, rest) ← terms.pairs?
    some (total first rest >>= EvalFault.finite)

end Columns

/-- The value of a text, computed in columns. -/
def Expression.evaluateColumns? (s : Text) : Option (Except EvalFault Float) :=
  match Columns.ofText s with
  | .ok c => c.value?
  | .error fault => some (.error (.parse fault))

end HeartKeypad
