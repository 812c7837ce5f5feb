import HeartKeypad.Calculator
import HeartKeypad.Keypad.Layout
import HeartKeypad.Settings.Effects

/-!
# The settings of the program

Three sections: the screen, the easter egg and the show.

`Settings.fault?` is the first rule that settings break: the screen's rules come
first, then that of the easter egg, then those of the show.
-/

namespace HeartKeypad

/-- A result that is celebrated, and the link that is opened for it. -/
structure EasterEgg where
  url : Text :=
    "https://m.youtube.com/watch?v=TWo7ktEPxSg&pp=ygUOWmFtYW5zxLF6ZMSxayDSBwkJrQkBhyohjO8%3D".toList
  result : Text := Calculator.defaultEgg
  openLink : Bool := true
deriving DecidableEq

/-- The settings of the program. -/
structure Settings where
  screen : Screen := {}
  easterEgg : EasterEgg := {}
  effects : Effects := {}
deriving DecidableEq

/-- A rule that settings break. -/
inductive SettingsFault where
  | screen (fault : ScreenFault)
  | emptyResult
  | effects (fault : EffectsFault)
deriving DecidableEq

/-- What is said about settings of a show that break a rule. -/
def EffectsFault.report (f : EffectsFault) : String := "Invalid fx configuration: " ++ f.message

/-- What is said about settings that break a rule. -/
def SettingsFault.report (f : SettingsFault) : String :=
  "Invalid configuration: " ++ match f with
    | .screen f => f.message
    | .emptyResult => "easter_egg.result must not be empty"
    | .effects f => f.report

/-- The first rule that the settings break. -/
def Settings.fault? (s : Settings) : Option SettingsFault :=
  (s.screen.fault?.map .screen).or <|
  if s.easterEgg.result.trim.isEmpty then some .emptyResult
  else s.effects.fault?.map .effects

end HeartKeypad
