import HeartKeypad.Keypad.Key
import HeartKeypad.Expression.Value
import HeartKeypad.Expression.Result

/-!
# The calculator

The calculator edits one text, its display, and evaluates it when asked.  It
never refuses a key: an expression that makes no sense shows as `Error` at the
next `=`.

* `Calculator.press` applies a key and says what it signals.
* `Mode` decides what the clear key does: everything when idle, one character
  while editing.

### What every operation restores

Each operation ends in `settle`, which puts a zero on an empty display and makes
the calculator idle whenever a lone zero is shown.
-/

namespace HeartKeypad

/-- Whether the display is being typed or shows something finished. -/
inductive Mode where
  | idle
  | editing
deriving DecidableEq, Repr

/-- The label of the clear key. -/
def Mode.clearLabel : Mode → Text
  | .idle => ['A', 'C']
  | .editing => ['⌫']

/-- What a key press signals to the outside. -/
inductive Signal where
  | digitAccepted (d : Digit)
  | easterEgg
deriving DecidableEq, Repr

/-- What is shown: the display and the mode. -/
structure Face where
  display : Text
  mode : Mode
deriving DecidableEq

/-- A calculator, with the result that sets off the easter egg. -/
structure Calculator extends Face where
  egg : Text
deriving DecidableEq

/-- What a key press leads to. -/
structure Outcome extends Face where
  signal : Option Signal
deriving DecidableEq

namespace Calculator

/-- The display of a calculator with nothing on it. -/
def zero : Text := ['0']

/-- The display after an evaluation that failed. -/
def errorMark : Text := ['E', 'r', 'r', 'o', 'r']

/-- The result that sets off the easter egg unless another is chosen. -/
def defaultEgg : Text := ['7', '7', '7']

/-- A fresh calculator. -/
def fresh (egg : Text) : Calculator := ⟨⟨zero, .idle⟩, egg⟩

/-- The label of the clear key. -/
def clearLabel (c : Calculator) : Text := c.mode.clearLabel

/-- An empty display shows zero, and a lone zero is never being edited. -/
def settle (display : Text) (mode : Mode) : Face :=
  let display := if display.isEmpty then zero else display
  ⟨display, if display = zero then .idle else mode⟩

/-- The calculator with a new face, settled. -/
def showing (c : Calculator) (display : Text) (mode : Mode) : Calculator :=
  { c with toFace := settle display mode }

/-- The display without a lone zero, where typing a mark starts. -/
def markBase (display : Text) : Text := if display = zero then [] else display

/-- The display without a lone zero or the error mark, where typing a digit
starts. -/
def digitBase (display : Text) : Text :=
  if display = zero ∨ display = errorMark then [] else display

/-- Types a digit. -/
def pressDigit (d : Digit) (c : Calculator) : Calculator :=
  c.showing (digitBase c.display ++ [d.glyph]) .editing

/-- Types a mark. -/
def pressMark (m : Mark) (c : Calculator) : Calculator :=
  c.showing (markBase c.display ++ [m.glyph]) .editing

/-- The text that `=` puts on the display. -/
def answer (display : Text) : Text :=
  match Expression.evaluate display with
  | .ok x => Result.format x
  | .error _ => errorMark

/-- Evaluates the display. -/
def pressEqual (c : Calculator) : Calculator :=
  c.showing (answer c.display) .idle

/-- Clears everything when idle, the last character while editing. -/
def pressClear (c : Calculator) : Calculator :=
  match c.mode with
  | .idle => c.showing zero .idle
  | .editing => c.showing c.display.dropLast .editing

/-- Takes a leading minus off the display, or puts one on. -/
def pressNegate (c : Calculator) : Calculator :=
  match c.display with
  | '-' :: rest => c.showing rest .editing
  | display => c.showing ('-' :: display) .editing

/-- Divides a bare number by a hundred; leaves anything else alone. -/
def pressPercent (c : Calculator) : Calculator :=
  match Result.read? c.display with
  | some x => c.showing (Result.format (x / 100.0)) c.mode
  | none => c.showing c.display c.mode

/-- The calculator after a key. -/
def press (k : Key) (c : Calculator) : Calculator :=
  match k with
  | .digit d => c.pressDigit d
  | .mark m => c.pressMark m
  | .equal => c.pressEqual
  | .clear => c.pressClear
  | .negate => c.pressNegate
  | .percent => c.pressPercent

/-- What a key signals: a digit itself, and `=` the easter egg if the text that
it puts on the display is the chosen one. -/
def signal (k : Key) (c : Calculator) : Option Signal :=
  match k with
  | .digit d => some (.digitAccepted d)
  | .equal => if answer c.display = c.egg then some .easterEgg else none
  | _ => none

/-- What a key leads to. -/
def outcome (k : Key) (c : Calculator) : Outcome :=
  ⟨(c.press k).toFace, c.signal k⟩

end Calculator

end HeartKeypad
