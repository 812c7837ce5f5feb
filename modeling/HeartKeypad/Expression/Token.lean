import HeartKeypad.Expression.Lexeme

/-!
# Tokens

The tokens of a text are its numbers and operators; blanks separate and mean
nothing.  `Token.ofText` reads the lexemes from left to right and stops at the
first that is at fault: a stray character, named with its position, or a run of
digits and points that is no number.

`Expression.normalize` writes every operator with its ASCII glyph.
-/

namespace HeartKeypad

/-- A number or an operator. -/
inductive Token where
  | number (x : Float)
  | operator (op : Operator)
deriving DecidableEq

/-- Why a text is no expression. -/
inductive ParseFault where
  | empty
  | unexpected (c : Char) (position : Nat)
  | malformed (literal : Text)
  | missingOperand (position : Nat)
deriving DecidableEq

/-- What is said about a text that is no expression. -/
def ParseFault.message : ParseFault → String
  | .empty => "Expression is empty"
  | .unexpected c position =>
    "Unexpected character '" ++ String.singleton c ++ "' at position " ++
      toString position
  | .malformed literal => "Malformed number '" ++ String.ofList literal ++ "'"
  | .missingOperand position => "Missing operand at token " ++ toString position

namespace Token

/-- The tokens of lexemes that start at a position: at most one for each. -/
def ofLexemes (position : Nat) : List Lexeme → Except ParseFault (List Token)
  | [] => .ok []
  | .blank _ :: ls => ofLexemes (position + 1) ls
  | .numeral run :: ls =>
    match Numeral.read? run with
    | some x => (ofLexemes (position + run.length) ls).map (.number x :: ·)
    | none => .error (.malformed run)
  | .glyph _ op :: ls => (ofLexemes (position + 1) ls).map (.operator op :: ·)
  | .stray c :: _ => .error (.unexpected c position)

/-- The tokens of a text. -/
def ofText (s : Text) : Except ParseFault (List Token) :=
  ofLexemes 0 (Lexeme.ofText s)

end Token

/-- The glyph that stands for the same operator in ASCII. -/
def Operator.plainGlyph : Char → Char
  | '×' | 'x' => '*'
  | '÷' => '/'
  | '−' => '-'
  | c => c

/-- The text with every operator in its ASCII spelling. -/
def Expression.normalize (s : Text) : Text := s.map Operator.plainGlyph

end HeartKeypad
