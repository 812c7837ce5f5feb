import HeartKeypad.Heart.Basic
import HeartKeypad.Keypad.Key
import HeartKeypad.Number.Written

/-!
# The layout of the keypad

Five rows of keys stand at the bottom of the screen.  Four keys and the spaces around
them fill its width; the zero takes the room of two.

* `Screen.fault?` is the first rule that a screen breaks.
* `Layout.origin?` is the centre of a key, with the vertical axis pointing down.
-/

namespace HeartKeypad

/-- The screen, in points. -/
structure Screen where
  width : Float := 390.0
  height : Float := 844.0
  spacing : Float := 12.0
deriving DecidableEq

/-- A rule that a screen breaks. -/
inductive ScreenFault where
  | spacing (value : Float)
  | width (value : Float)
  | height (value : Float)
deriving DecidableEq

/-- What is said about a broken rule. -/
def ScreenFault.message : ScreenFault → String
  | .spacing value =>
    "screen.spacing must be a non-negative number, got " ++
      String.ofList (Written.shortest value)
  | .width value =>
    "screen.width " ++ String.ofList (Written.shortest value) ++
      " leaves no room for four keys"
  | .height value =>
    "screen.height must be positive, got " ++ String.ofList (Written.shortest value)

namespace Screen

/-- The width of an ordinary key: a quarter of what five spaces leave. -/
def keyWidth (s : Screen) : Float := (s.width - 5.0 * s.spacing) / 4.0

/-- The height of every key: keys are square. -/
def keyHeight (s : Screen) : Float := s.keyWidth

/-- The width of the zero. -/
def zeroWidth (s : Screen) : Float := (s.width - 4.0 * s.spacing) / 4.0 * 2.0

/-- The width of a key. -/
def widthOf (s : Screen) : Key → Float
  | .digit 0 => s.zeroWidth
  | _ => s.keyWidth

/-- The first rule that the screen breaks. -/
def fault? (s : Screen) : Option ScreenFault :=
  if !s.spacing.isFinite || s.spacing < 0.0 then some (.spacing s.spacing)
  else if !s.width.isFinite || s.keyWidth ≤ 0.0 then some (.width s.width)
  else if !s.height.isFinite || s.height ≤ 0.0 then some (.height s.height)
  else none

end Screen

namespace Layout

/-- The keys, row by row. -/
def rows : List (List Key) :=
  [[.clear, .negate, .percent, .mark .divide],
    [.digit 7, .digit 8, .digit 9, .mark .multiply],
    [.digit 4, .digit 5, .digit 6, .mark .subtract],
    [.digit 1, .digit 2, .digit 3, .mark .add],
    [.digit 0, .mark .decimal, .equal]]

/-- The row and column of a key. -/
def place? (k : Key) : Option (Nat × Nat) :=
  (rows.zipIdx.findSome? fun (row, r) => (row.idxOf? k).map fun c => (r, c))

/-- The room that keys take from the left, each with the space behind it.  The sum starts
from minus zero, which changes nothing that is added to it, not even a minus zero. -/
def roomOf (s : Screen) (keys : List Key) : Float :=
  keys.foldl (fun sum k => sum + (s.widthOf k + s.spacing)) (-0.0)

/-- The centre of a key at a place. -/
def originAt (s : Screen) (k : Key) (row column : Nat) : Point :=
  let left := roomOf s ((rows.getD row []).take column)
  let below := Float.ofNat (rows.length - row)
  ⟨s.spacing + left + s.widthOf k / 2.0,
    s.height - below * (s.keyHeight + s.spacing) + s.keyHeight / 2.0⟩

/-- The centre of a key. -/
def origin? (s : Screen) (k : Key) : Option Point :=
  (place? k).map fun (row, column) => originAt s k row column

end Layout

end HeartKeypad
