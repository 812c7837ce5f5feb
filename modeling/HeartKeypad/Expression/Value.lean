import HeartKeypad.Expression.Token

/-!
# The value of an expression

An expression is a chain of signed operands with operators between them.
`Chain.ofTokens` reads it from tokens; `Chain.value` computes it in two passes,
first the products and quotients, then the sums and differences.  Both passes
stop as soon as a result is not finite, and so does a final test, which sees a
lone operand that is too large.

* `Chain` — a first operand, and pairs of an operator and the operand behind it.
* `Chain.products` — the chain with every tight operator carried out.
* `Expression.evaluate` — the value of a text, or the reason why it has none.
-/

namespace HeartKeypad

/-- Why a text has no value. -/
inductive EvalFault where
  | parse (fault : ParseFault)
  | nonFinite
deriving DecidableEq

/-- What is said about a text that has no value. -/
def EvalFault.message : EvalFault → String
  | .parse fault => "Parse failure: " ++ fault.message
  | .nonFinite => "Result is not a finite number"

/-- Operands with operators between them. -/
structure Chain where
  first : Float
  rest : List (Operator × Float)
deriving DecidableEq

/-- The result of an operator, before it is tested. -/
def Operator.result : Operator → Float → Float → Float
  | .add, x, y => x + y
  | .subtract, x, y => x - y
  | .multiply, x, y => x * y
  | .divide, x, y => x / y

/-- A result stands only if it is finite. -/
def EvalFault.finite (x : Float) : Except EvalFault Float :=
  if x.isFinite then .ok x else .error .nonFinite

/-- An operator applied to its operands. -/
def Operator.apply (op : Operator) (x y : Float) : Except EvalFault Float :=
  EvalFault.finite (op.result x y)

namespace Chain

/-- An operand with its sign: a minus multiplies by `-1`. -/
def signed (minus : Bool) (x : Float) : Float := if minus then -1.0 * x else x

/-- Reads a chain from tokens, the first of which has a given index; `minus` says
that a sign has just been read, so that an operand without one must follow.  The
index of a missing operand is the number of tokens that could still be read. -/
def ofTokensFrom (minus : Bool) (index : Nat) : List Token → Except ParseFault Chain
  | [.number x] => .ok ⟨signed minus x, []⟩
  | .number x :: .operator op :: ts =>
    (ofTokensFrom false (index + 2) ts).map fun c =>
      ⟨signed minus x, (op, c.first) :: c.rest⟩
  | .number _ :: .number _ :: _ => .error (.missingOperand (index + 1))
  | .operator .subtract :: ts =>
    if minus then .error (.missingOperand index) else ofTokensFrom true (index + 1) ts
  | _ => .error (.missingOperand index)

/-- Reads a chain from all the tokens of a text. -/
def ofTokens : List Token → Except ParseFault Chain
  | [] => .error .empty
  | ts => ofTokensFrom false 0 ts

/-- Carries out the tight operators, from left to right: the chain of the terms
that is left. -/
def products (x : Float) : List (Operator × Float) → Except EvalFault Chain
  | [] => .ok ⟨x, []⟩
  | (op, y) :: rest =>
    if op.isTight then do
      let z ← op.apply x y
      products z rest
    else do
      let c ← products y rest
      .ok ⟨x, (op, c.first) :: c.rest⟩

/-- Carries out all operators, from left to right. -/
def total (x : Float) : List (Operator × Float) → Except EvalFault Float
  | [] => .ok x
  | (op, y) :: rest => do
    let z ← op.apply x y
    total z rest

/-- The value of a chain: its products first, then their sum. -/
def value (c : Chain) : Except EvalFault Float := do
  let terms ← products c.first c.rest
  let sum ← total terms.first terms.rest
  EvalFault.finite sum

end Chain

namespace Expression

/-- The chain that a text spells. -/
def parse (s : Text) : Except ParseFault Chain := do
  let tokens ← Token.ofText s
  Chain.ofTokens tokens

/-- The value of a text. -/
def evaluate (s : Text) : Except EvalFault Float :=
  match parse s with
  | .ok chain => chain.value
  | .error fault => .error (.parse fault)

end Expression

end HeartKeypad
