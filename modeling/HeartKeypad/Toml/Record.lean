import HeartKeypad.Toml.Value

/-!
# Records in settings files

A record is given as a table of its fields, others being ignored, or as an array of
its fields in order, of which the last ones may be missing.  A moment passes for a
record without any of its fields.

`Toml.Field.read` reads one field: a missing one has its default value, but one that
is there must be of its kind.
-/

namespace HeartKeypad

namespace Toml

/-- The fields of a record that are given, in the order of their names. -/
def record? (names : List String) : Toml → Option (List (Option Toml))
  | .table entries => some (names.map fun name => entries.lookup name.toList)
  | .array values => some (names.zipIdx.map fun (_, i) => values[i]?)
  | .moment => some (names.map fun _ => none)
  | _ => none

/-- Reads a field that may be missing. -/
def fieldOr {α : Type} (read : Toml → Option α) (default : α) : Option Toml → Option α
  | none => some default
  | some v => read v

/-- An unsigned 64-bit word, from an integer that is not negative. -/
def word? : Toml → Option UInt64
  | .integer n => if 0 ≤ n then some (UInt64.ofNat n.toNat) else none
  | _ => none

/-- A double; integers are read as the nearest one. -/
def real? : Toml → Option Float
  | .integer n => some (Float.ofInt n)
  | .real x => some x
  | _ => none

/-- A text. -/
def text? : Toml → Option Text
  | .text s => some s
  | _ => none

/-- A truth value. -/
def boolean? : Toml → Option Bool
  | .boolean b => some b
  | _ => none

end Toml

end HeartKeypad
