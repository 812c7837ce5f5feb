import HeartKeypad.Text.Blank
import HeartKeypad.Number.Read

/-!
# The keys of the keypad

Nineteen keys: ten digits, five marks that type a glyph, and four that act on the
whole display: equals, clear, percent and the sign key.

* `Key.label` is the text printed on a key.
* `Key.ofLabel` reads a key from a label, in any of its accepted spellings.

Letters in labels are read in either case.  The accepted spellings hold no
letters but `a`, `c` and `x`, so lowering ASCII letters is all this takes.
-/

namespace HeartKeypad

/-- A decimal digit. -/
abbrev Digit := Fin 10

namespace Digit

/-- The digit with a given value, if there is one. -/
def ofNat? (n : Nat) : Option Digit :=
  if h : n < 10 then some ⟨n, h⟩ else none

/-- The character of a digit. -/
def glyph (d : Digit) : Char := Char.ofNat (48 + d.val)

/-- The digit that a character stands for. -/
def ofGlyph? (c : Char) : Option Digit :=
  if Numeral.isDigit c then ofNat? (Numeral.digitValue c) else none

theorem ofNat?_eq_some_iff {n : Nat} {d : Digit} : ofNat? n = some d ↔ d.val = n := by
  unfold ofNat?
  split
  · rename_i h
    constructor
    · intro e; cases e; rfl
    · intro e; subst e; rfl
  · rename_i h
    constructor
    · intro e; cases e
    · intro e; exact absurd (e ▸ d.isLt) h

theorem ofGlyph?_glyph (d : Digit) : ofGlyph? d.glyph = some d := by
  revert d; decide

end Digit

/-- A key that types a glyph into the expression. -/
inductive Mark where
  | add
  | subtract
  | multiply
  | divide
  | decimal
deriving DecidableEq, Repr

/-- The character that a mark types. -/
def Mark.glyph : Mark → Char
  | .add => '+'
  | .subtract => '-'
  | .multiply => '×'
  | .divide => '÷'
  | .decimal => '.'

/-- A key of the keypad. -/
inductive Key where
  | digit (d : Digit)
  | mark (m : Mark)
  | equal
  | clear
  | percent
  | negate
deriving DecidableEq, Repr

/-- A label that stands for no key. -/
structure UnknownLabel where
  label : Text
deriving DecidableEq

/-- What is said about a label that stands for no key. -/
def UnknownLabel.message (e : UnknownLabel) : String :=
  "Unknown button label: '" ++ String.ofList e.label ++ "'"

namespace Key

/-- The text printed on a key. -/
def label : Key → Text
  | .digit d => [d.glyph]
  | .mark m => [m.glyph]
  | .equal => ['=']
  | .clear => ['A', 'C']
  | .percent => ['%']
  | .negate => ['-', '/', '+']

/-- The glyph that a key types, if it types one. -/
def glyph? : Key → Option Char
  | .digit d => some d.glyph
  | .mark m => some m.glyph
  | _ => none

/-- The mark on a key, if it is one. -/
def mark? : Key → Option Mark
  | .mark m => some m
  | _ => none

/-- The key is a digit. -/
def isDigit : Key → Bool
  | .digit _ => true
  | _ => false

/-- The key that types a digit, or the mark that a lower-case name spells. -/
def ofName? : Text → Option Key
  | ['+'] => some (.mark .add)
  | ['-'] | ['−'] => some (.mark .subtract)
  | ['×'] | ['x'] | ['*'] => some (.mark .multiply)
  | ['÷'] | ['/'] => some (.mark .divide)
  | ['.'] => some (.mark .decimal)
  | ['='] => some .equal
  | ['a', 'c'] | ['c'] | ['⌫'] => some .clear
  | ['%'] => some .percent
  | ['-', '/', '+'] | ['+', '/', '-'] | ['±'] => some .negate
  | [c] => (Digit.ofGlyph? c).map .digit
  | _ => none

/-- The key that a label stands for; blanks around the label do not matter. -/
def ofLabel (label : Text) : Except UnknownLabel Key :=
  let bare := label.trim
  match ofName? (bare.map Char.toLower) with
  | some key => .ok key
  | none => .error ⟨bare⟩

theorem ofName?_label (k : Key) : ofName? (k.label.trim.map Char.toLower) = some k := by
  cases k with
  | digit d => revert d; decide
  | mark m => cases m <;> decide
  | equal => decide
  | clear => decide
  | percent => decide
  | negate => decide

/-- Every key is read back from the label printed on it. -/
theorem ofLabel_label (k : Key) : ofLabel k.label = .ok k := by
  simp [ofLabel, ofName?_label]

end Key

end HeartKeypad
