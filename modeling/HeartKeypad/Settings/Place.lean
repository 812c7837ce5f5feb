import HeartKeypad.Text.Blank

/-!
# Where the settings file is

The file has its place in a directory of the program's own, below the one that holds
the settings of all programs.
-/

namespace HeartKeypad

namespace Settings.Place

/-- The path of a name in a directory. -/
def below (directory name : Text) : Text :=
  if directory.isEmpty || directory.getLast? = some '/' then directory ++ name
  else directory ++ '/' :: name

/-- The directory for settings: the one named for the purpose, if that is an absolute
path, and otherwise one in the home directory. -/
def directory (home : Text) (named? : Option Text) : Text :=
  match named? with
  | some ('/' :: rest) => '/' :: rest
  | _ => below home ".config".toList

/-- The path of the settings file. -/
def file (home : Text) (named? : Option Text) : Text :=
  below (below (directory home named?) "heartcalc".toList) "heartcalc.toml".toList

end Settings.Place

end HeartKeypad
