import HeartKeypad.Number.Hex
import HeartKeypad.Number.Written

/-!
# JSON values in writing

A JSON value tells integers from other numbers, as its texts do: `1` is an integer
and `1.0` is not.  Objects keep their fields in order.

* `Json.compact` writes a value without blanks.
* `Json.pretty` writes it over several lines, indented by two blanks a level; an
  empty array or object stays in one piece.

Characters below U+0020, the quote and the backslash are escaped; all others stand
for themselves.
-/

namespace HeartKeypad

/-- A JSON value. -/
inductive Json where
  | null
  | bool (b : Bool)
  | integer (n : Int)
  | real (x : Float)
  | string (s : Text)
  | array (values : List Json)
  | object (fields : List (Text × Json))

namespace Json

/-- A character inside a quoted text. -/
def escape (c : Char) : Text :=
  match c with
  | '"' => ['\\', '"']
  | '\\' => ['\\', '\\']
  | '\n' => ['\\', 'n']
  | '\r' => ['\\', 'r']
  | '\t' => ['\\', 't']
  | c =>
    if c.toNat = 8 then ['\\', 'b']
    else if c.toNat = 12 then ['\\', 'f']
    else if c.toNat < 32 then
      ['\\', 'u', '0', '0', Hex.digit (c.toNat / 16), Hex.digit (c.toNat % 16)]
    else [c]

/-- A text in quotes. -/
def quote (s : Text) : Text := '"' :: s.flatMap escape ++ ['"']

/-- An integer in decimal notation. -/
def integerText (n : Int) : Text :=
  Written.sign (decide (n < 0)) ++ Written.digits n.natAbs

/-- A number that is no integer: it always holds a point, and what is not finite is
written as null. -/
def realText (x : Float) : Text :=
  match Dyadic.ofFloat? x with
  | some d => Written.shortest x ++ if d.isWhole then ['.', '0'] else []
  | none => "null".toList

/-- Texts with a comma between them. -/
def joined (separator : Text) : List Text → Text
  | [] => []
  | [t] => t
  | t :: ts => t ++ separator ++ joined separator ts

mutual

/-- The value without blanks. -/
def compact : Json → Text
  | .null => "null".toList
  | .bool true => "true".toList
  | .bool false => "false".toList
  | .integer n => integerText n
  | .real x => realText x
  | .string s => quote s
  | .array values => '[' :: joined [','] (compactValues values) ++ [']']
  | .object fields => '{' :: joined [','] (compactFields fields) ++ ['}']

/-- The values of an array without blanks. -/
def compactValues : List Json → List Text
  | [] => []
  | v :: vs => v.compact :: compactValues vs

/-- The fields of an object without blanks. -/
def compactFields : List (Text × Json) → List Text
  | [] => []
  | (name, v) :: fs => (quote name ++ ':' :: v.compact) :: compactFields fs

end

/-- Lines between brackets, one level deeper than the brackets. -/
def bracketed (indent : Nat) (left right : Char) (lines : List Text) : Text :=
  if lines.isEmpty then [left, right]
  else
    let inner := '\n' :: List.replicate (2 * (indent + 1)) ' '
    let outer := '\n' :: List.replicate (2 * indent) ' '
    left :: inner ++ joined (',' :: inner) lines ++ outer ++ [right]

mutual

/-- The value over several lines, at a level of indentation. -/
def prettyAt (indent : Nat) : Json → Text
  | .array values => bracketed indent '[' ']' (prettyValues (indent + 1) values)
  | .object fields => bracketed indent '{' '}' (prettyFields (indent + 1) fields)
  | v => v.compact

/-- The values of an array over several lines. -/
def prettyValues (indent : Nat) : List Json → List Text
  | [] => []
  | v :: vs => prettyAt indent v :: prettyValues indent vs

/-- The fields of an object over several lines. -/
def prettyFields (indent : Nat) : List (Text × Json) → List Text
  | [] => []
  | (name, v) :: fs =>
    (quote name ++ ':' :: ' ' :: prettyAt indent v) :: prettyFields indent fs

end

/-- The value over several lines. -/
def pretty (v : Json) : Text := prettyAt 0 v

/-- The field of an object with a name. -/
def field? (name : Text) : Json → Option Json
  | .object fields => fields.lookup name
  | _ => none

end Json

end HeartKeypad
