import HeartKeypad.Text.Blank

/-!
# Values of settings files

The values of a TOML document.  A table is its entries in the order in which they
were written; a date or time is kept as such without its content, since no setting is
one.
-/

namespace HeartKeypad

/-- A value of a settings file. -/
inductive Toml where
  | text (s : Text)
  | integer (n : Int)
  | real (x : Float)
  | boolean (b : Bool)
  | moment
  | array (values : List Toml)
  | table (entries : List (Text × Toml))

end HeartKeypad
