import HeartKeypad.Number.Written
import HeartKeypad.Number.Read

/-!
# Results on the display

A whole number is shown without a point, and zero without a sign; any other
number with two places.  `Result.read?` reads a bare number back: an optional
sign, then digits with at most one point.
-/

namespace HeartKeypad

namespace Result

/-- The text of a result. -/
def format (x : Float) : Text :=
  match Dyadic.ofFloat? x with
  | some d =>
    if d.isWhole then
      if d.significand = 0 then ['0'] else Written.fixed 0 x
    else Written.fixed 2 x
  | none => Written.fixed 2 x

/-- The double of a bare number, read without its sign. -/
def readBare? (minus : Bool) (body : Text) : Option Float :=
  match Numeral.read? body with
  | some x => if x.isFinite then some (if minus then -x else x) else none
  | none => none

/-- The double that a bare number denotes, if it is finite. -/
def read? : Text → Option Float
  | '-' :: body => readBare? true body
  | '+' :: body => readBare? false body
  | body => readBare? false body

end Result

end HeartKeypad
