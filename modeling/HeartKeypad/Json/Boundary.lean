import HeartKeypad.Calculator
import HeartKeypad.Json.Value

/-!
# The calculator's types as JSON

What a front end sends to a calculator and hears from it.  Each type has one form
that is written and a few more that are read:

* a name without content is a string, and may be read from an object with that
  single field, if it holds null;
* a name with content is an object with that single field;
* a record is an object with its fields, others being ignored, and may be read from
  an array of exactly its fields in order;
* an optional field may be missing.

What is written is read back as the same value.
-/

namespace HeartKeypad

namespace Json

/-- A name without content, written as a string. -/
def ofName (name : String) : Json := .string name.toList

/-- A name with content, written as an object with one field. -/
def ofTagged (name : String) (content : Json) : Json := .object [(name.toList, content)]

/-- A name, and the content given with it. -/
def tagged? : Json → Option (Text × Option Json)
  | .string name => some (name, none)
  | .object [(name, content)] => some (name, some content)
  | _ => none

/-- A name without content: alone, or with null. -/
def name? (v : Json) : Option Text :=
  match v.tagged? with
  | some (name, none) => some name
  | some (name, some .null) => some name
  | _ => none

/-- The fields of a record in order: by name from an object, by place from an array
of the right length.  A field that is missing is `none`. -/
def record? (names : List String) : Json → Option (List (Option Json))
  | .object fields => some (names.map fun name => fields.lookup name.toList)
  | .array values =>
    if values.length = names.length then some (values.map some) else none
  | _ => none

/-- A text. -/
def text? : Json → Option Text
  | .string s => some s
  | _ => none

/-- A natural number. -/
def nat? : Json → Option Nat
  | .integer (.ofNat n) => some n
  | _ => none

/-- A double; integers are read as the nearest one. -/
def real? : Json → Option Float
  | .integer n => some (Float.ofInt n)
  | .real x => some x
  | _ => none

/-- A value that may be null or missing. -/
def optional? {α : Type} (read : Json → Option α) : Option Json → Option (Option α)
  | none => some none
  | some .null => some none
  | some v => (read v).map some

end Json

namespace Digit

def toJson (d : Digit) : Json := .integer d.val

def ofJson? (v : Json) : Option Digit := v.nat?.bind ofNat?

end Digit

namespace Mark

/-- The name of a mark. -/
def name : Mark → String
  | .add => "add"
  | .subtract => "subtract"
  | .multiply => "multiply"
  | .divide => "divide"
  | .decimal => "decimal"

/-- All marks. -/
def all : List Mark := [.add, .subtract, .multiply, .divide, .decimal]

/-- The mark with a name. -/
def ofName? (name : Text) : Option Mark := all.find? fun m => m.name.toList == name

def toJson (m : Mark) : Json := .ofName m.name

def ofJson? (v : Json) : Option Mark := v.name?.bind ofName?

end Mark

namespace Key

/-- The name of a key that is no digit. -/
def plainName? (name : Text) : Option Key :=
  if name = "equal".toList then some .equal
  else if name = "clear".toList then some .clear
  else if name = "percent".toList then some .percent
  else if name = "negate".toList then some .negate
  else (Mark.ofName? name).map .mark

def toJson : Key → Json
  | .digit d => .ofTagged "digit" d.toJson
  | .mark m => m.toJson
  | .equal => .ofName "equal"
  | .clear => .ofName "clear"
  | .percent => .ofName "percent"
  | .negate => .ofName "negate"

def ofJson? (v : Json) : Option Key :=
  match v.tagged? with
  | some (name, content) =>
    if name = "digit".toList then (content.bind Digit.ofJson?).map .digit
    else v.name?.bind plainName?
  | none => none

end Key

namespace Mode

def toJson : Mode → Json
  | .idle => .ofName "idle"
  | .editing => .ofName "editing"

def ofJson? (v : Json) : Option Mode :=
  v.name?.bind fun name =>
    if name = "idle".toList then some .idle
    else if name = "editing".toList then some .editing
    else none

end Mode

namespace Signal

def toJson : Signal → Json
  | .digitAccepted d => .ofTagged "digit_accepted" d.toJson
  | .easterEgg => .ofName "easter_egg"

def ofJson? (v : Json) : Option Signal :=
  match v.tagged? with
  | some (name, content) =>
    if name = "digit_accepted".toList then
      (content.bind Digit.ofJson?).map .digitAccepted
    else if name = "easter_egg".toList ∧ v.name?.isSome then some .easterEgg
    else none
  | none => none

end Signal

namespace Face

/-- The fields of a face, as they are written. -/
def jsonFields (f : Face) : List (Text × Json) :=
  [("display".toList, .string f.display), ("editMode".toList, f.mode.toJson)]

def toJson (f : Face) : Json := .object f.jsonFields

def ofJson? (v : Json) : Option Face :=
  match v.record? ["display", "editMode"] with
  | some [some display, some mode] => do
    let display ← display.text?
    let mode ← Mode.ofJson? mode
    some ⟨display, mode⟩
  | _ => none

end Face

namespace Outcome

def toJson (o : Outcome) : Json :=
  .object (o.toFace.jsonFields ++
    [("signal".toList, (o.signal.map Signal.toJson).getD .null)])

def ofJson? (v : Json) : Option Outcome :=
  match v.record? ["display", "editMode", "signal"] with
  | some [some display, some mode, signal] => do
    let display ← display.text?
    let mode ← Mode.ofJson? mode
    let signal ← Json.optional? Signal.ofJson? signal
    some ⟨⟨display, mode⟩, signal⟩
  | _ => none

end Outcome

end HeartKeypad
