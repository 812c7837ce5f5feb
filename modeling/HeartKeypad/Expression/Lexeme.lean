import HeartKeypad.Number.Read

/-!
# Lexemes

Every text is cut into lexemes, whatever it holds: blanks, maximal runs of
numeral characters, operator glyphs, and stray characters that mean nothing.
The cut loses no character (`spelling_ofText`), and each lexeme knows its
length, so positions are sums of lengths.

`Lexeme.ofText` groups from the right: a numeral character joins the run that
starts directly behind it.  Runs are therefore maximal by construction.
-/

namespace HeartKeypad

/-- A binary operator of the expression language. -/
inductive Operator where
  | add
  | subtract
  | multiply
  | divide
deriving DecidableEq, Repr

namespace Operator

/-- The operator that a glyph stands for; multiplication, division and
subtraction have several spellings. -/
def ofGlyph? : Char → Option Operator
  | '+' => some .add
  | '-' | '−' => some .subtract
  | '*' | '×' | 'x' => some .multiply
  | '/' | '÷' => some .divide
  | _ => none

/-- Multiplication and division bind tighter than the other two. -/
def isTight : Operator → Bool
  | .multiply | .divide => true
  | .add | .subtract => false

end Operator

/-- A piece of a text, as far as the expression language tells pieces apart. -/
inductive Lexeme where
  | blank (c : Char)
  | numeral (run : Text)
  | glyph (c : Char) (op : Operator)
  | stray (c : Char)
deriving DecidableEq

namespace Lexeme

/-- The characters of a lexeme. -/
def spelling : Lexeme → Text
  | .blank c => [c]
  | .numeral run => run
  | .glyph c _ => [c]
  | .stray c => [c]

/-- A character that belongs to no run, as a lexeme. -/
def ofChar (c : Char) : Lexeme :=
  if Text.isBlank c then .blank c
  else match Operator.ofGlyph? c with
    | some op => .glyph c op
    | none => .stray c

/-- Puts a numeral character in front of lexemes: it joins a run that starts
there, and otherwise starts one. -/
def consNumeral (c : Char) : List Lexeme → List Lexeme
  | .numeral run :: ls => .numeral (c :: run) :: ls
  | ls => .numeral [c] :: ls

/-- The lexemes of a text. -/
def ofText : Text → List Lexeme
  | [] => []
  | c :: cs =>
    if Numeral.isNumeral c then consNumeral c (ofText cs)
    else ofChar c :: ofText cs

/-! ### The cut loses nothing -/

@[simp] theorem ofText_nil : ofText [] = [] := rfl

theorem ofText_cons_numeral {c : Char} (h : Numeral.isNumeral c = true) (cs : Text) :
    ofText (c :: cs) = consNumeral c (ofText cs) := by
  simp [ofText, h]

theorem ofText_cons_other {c : Char} (h : Numeral.isNumeral c = false) (cs : Text) :
    ofText (c :: cs) = ofChar c :: ofText cs := by
  simp [ofText, h]

theorem spelling_ofChar (c : Char) : (ofChar c).spelling = [c] := by
  unfold ofChar
  split
  · rfl
  · split <;> rfl

theorem spelling_consNumeral (c : Char) (ls : List Lexeme) :
    (consNumeral c ls).flatMap spelling = c :: ls.flatMap spelling := by
  unfold consNumeral
  split <;> simp [spelling]

/-- The spellings of the lexemes of a text, in order, are the text. -/
theorem spelling_ofText (s : Text) : (ofText s).flatMap spelling = s := by
  induction s with
  | nil => rfl
  | cons c cs ih =>
    cases h : Numeral.isNumeral c with
    | true => rw [ofText_cons_numeral h, spelling_consNumeral, ih]
    | false => rw [ofText_cons_other h, List.flatMap_cons, spelling_ofChar, ih]; rfl

end Lexeme

end HeartKeypad
