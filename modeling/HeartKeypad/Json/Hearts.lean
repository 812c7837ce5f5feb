import HeartKeypad.Json.Boundary
import HeartKeypad.Json.Reader
import HeartKeypad.Show.Basic
import HeartKeypad.Time.Timestamp

/-!
# Hearts as JSON

Outside a show a heart is known by a universally unique number, and its times are
timestamps.  `HeartRecord` is a heart as it is exchanged, `EventRecord` an event.
-/

namespace HeartKeypad

/-- A universally unique number, by its 32 hexadecimal digits in lower case. -/
structure UniqueId where
  digits : Text
deriving DecidableEq

namespace UniqueId

/-- The lengths of the groups that the digits are written in. -/
def groups : List Nat := [8, 4, 4, 4, 12]

/-- Digits in groups with hyphens between them. -/
def grouped : List Nat → Text → List Text
  | [], _ => []
  | n :: ns, ds => ds.take n :: grouped ns (ds.drop n)

/-- The text of a unique number, in groups. -/
def toText (u : UniqueId) : Text := Json.joined ['-'] (grouped groups u.digits)

/-- The unique number with 32 hexadecimal digits. -/
def ofDigits? (ds : Text) : Option UniqueId :=
  if ds.length = 32 ∧ ds.all Hex.isDigit then some ⟨ds.map Char.toLower⟩ else none

/-- A unique number written in groups. -/
def ofGrouped? (s : Text) : Option UniqueId := do
  let u ← ofDigits? (s.filter Hex.isDigit)
  if u.toText = s.map Char.toLower then some u else none

/-- Reads a unique number: its digits alone or in groups, and groups also in braces
or behind `urn:uuid:`.  Letters may be of either case. -/
def read? (s : Text) : Option UniqueId :=
  if s.length = 32 then ofDigits? s
  else if s.length = 38 then
    if s.head? = some '{' ∧ s.getLast? = some '}' then ofGrouped? (s.drop 1).dropLast
    else none
  else if (s.take 9).map Char.toLower = "urn:uuid:".toList then ofGrouped? (s.drop 9)
  else ofGrouped? s

/-- A unique number from two words, marked as drawn at random. -/
def ofWords (high low : UInt64) : UniqueId :=
  let high := high &&& 0xFFFFFFFFFFFF0FFF ||| 0x4000
  let low := low &&& 0x3FFFFFFFFFFFFFFF ||| 0x8000000000000000
  ⟨Hex.ofWord high ++ Hex.ofWord low⟩

end UniqueId

namespace Point

def toJson (p : Point) : Json := .object [(['x'], .real p.x), (['y'], .real p.y)]

def ofJson? (v : Json) : Option Point :=
  match v.record? ["x", "y"] with
  | some [some x, some y] => do
    let x ← x.real?
    let y ← y.real?
    some ⟨x, y⟩
  | _ => none

end Point

namespace Color

def toJson : Color → Json
  | .pink => .ofName "pink"
  | .red => .ofName "red"
  | .purple => .ofName "purple"

def ofJson? (v : Json) : Option Color :=
  v.name?.bind fun name =>
    if name = "pink".toList then some .pink
    else if name = "red".toList then some .red
    else if name = "purple".toList then some .purple
    else none

end Color

namespace Phase

def toJson : Phase → Json
  | .spawned => .ofName "spawned"
  | .rising => .ofName "rising"
  | .expired => .ofName "expired"

def ofJson? (v : Json) : Option Phase :=
  v.name?.bind fun name =>
    if name = "spawned".toList then some .spawned
    else if name = "rising".toList then some .rising
    else if name = "expired".toList then some .expired
    else none

end Phase

namespace Timestamp

def toJson (t : Timestamp) : Json := .string t.toText

def ofJson? (v : Json) : Option Timestamp := v.text?.bind read?

end Timestamp

namespace UniqueId

def toJson (u : UniqueId) : Json := .string u.toText

def ofJson? (v : Json) : Option UniqueId := v.text?.bind read?

end UniqueId

/-- A heart as it is exchanged. -/
structure HeartRecord where
  id : UniqueId
  position : Point
  target : Point
  size : Float
  color : Color
  phase : Phase
  createdAt : Timestamp
  riseStartedAt : Option Timestamp
deriving DecidableEq

/-- The fields of a heart, with its identity in a form of its own. -/
def Heart.jsonFields (id : Json) (position target : Point) (size : Float) (color : Color)
    (phase : Phase) (createdAt : Timestamp) (riseStartedAt : Option Timestamp) :
    List (Text × Json) :=
  [("id".toList, id),
    ("position".toList, position.toJson),
    ("target".toList, target.toJson),
    ("size".toList, .real size),
    ("color".toList, color.toJson),
    ("phase".toList, phase.toJson),
    ("createdAt".toList, createdAt.toJson),
    ("riseStartedAt".toList, (riseStartedAt.map Timestamp.toJson).getD .null)]

/-- A heart of a show, with its identity in a given form. -/
def Heart.toJson (id : Json) (h : Heart) : Json :=
  .object (Heart.jsonFields id h.position h.target h.size h.color h.phase
    (Timestamp.ofInstant h.createdAt) (h.riseStartedAt.map Timestamp.ofInstant))

namespace HeartRecord

def toJson (h : HeartRecord) : Json :=
  .object (Heart.jsonFields h.id.toJson h.position h.target h.size h.color h.phase
    h.createdAt h.riseStartedAt)

/-- Reads a heart; its color and its phase are prepared before they are read. -/
def ofPrepared? (prepare : Json → Json) (v : Json) : Option HeartRecord :=
  match v.record? ["id", "position", "target", "size", "color", "phase", "createdAt",
    "riseStartedAt"] with
  | some [some id, some position, some target, some size, some color, some phase,
      some createdAt, riseStartedAt] => do
    let id ← UniqueId.ofJson? id
    let position ← Point.ofJson? position
    let target ← Point.ofJson? target
    let size ← size.real?
    let color ← Color.ofJson? (prepare color)
    let phase ← Phase.ofJson? (prepare phase)
    let createdAt ← Timestamp.ofJson? createdAt
    let riseStartedAt ← Json.optional? Timestamp.ofJson? riseStartedAt
    some ⟨id, position, target, size, color, phase, createdAt, riseStartedAt⟩
  | _ => none

def ofJson? (v : Json) : Option HeartRecord := ofPrepared? (fun name => name) v

end HeartRecord

/-- An event as it is exchanged. -/
inductive EventRecord where
  | rose (id : UniqueId) (target : Point)
  | expired (heart : HeartRecord)
deriving DecidableEq

namespace EventRecord

def toJson : EventRecord → Json
  | .rose id target =>
    .object [("kind".toList, .ofName "rose"), ("id".toList, id.toJson),
      ("target".toList, target.toJson)]
  | .expired heart =>
    .object [("kind".toList, .ofName "expired"), ("particle".toList, heart.toJson)]

/-- The kind of an event and the rest of it: by name from an object, in front of the
rest from an array. -/
def kind? : Json → Option (Json × Json)
  | .object fields => do
    let kind ← fields.lookup "kind".toList
    some (kind, .object fields)
  | .array (kind :: rest) => some (kind, .array rest)
  | _ => none

/-- A name given with an empty object, as if it were given with null.  Inside an event
the two mean the same. -/
def emptyAsNull : Json → Json
  | .object [(name, .object [])] => .object [(name, .null)]
  | v => v

def ofJson? (v : Json) : Option EventRecord := do
  let (kind, rest) ← kind? v
  let kind ← kind.text?
  if kind = "rose".toList then
    match rest.record? ["id", "target"] with
    | some [some id, some target] => do
      let id ← UniqueId.ofJson? id
      let target ← Point.ofJson? target
      some (.rose id target)
    | _ => none
  else if kind = "expired".toList then
    match rest.record? ["particle"] with
    | some [some heart] => (HeartRecord.ofPrepared? emptyAsNull heart).map .expired
    | _ => none
  else none

end EventRecord

namespace Show

/-- An event of a show, with the numbers of hearts as their identities. -/
def Event.toJson : Event → Json
  | .rose id target =>
    .object [("kind".toList, .ofName "rose"), ("id".toList, .integer id),
      ("target".toList, target.toJson)]
  | .expired heart =>
    .object [("kind".toList, .ofName "expired"),
      ("particle".toList, heart.toJson (.integer heart.id))]

end Show

end HeartKeypad
