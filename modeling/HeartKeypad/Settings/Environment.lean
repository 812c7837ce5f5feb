import HeartKeypad.Number.Read
import HeartKeypad.Settings.Basic

/-!
# Settings from the environment

Seven variables replace single settings.  A number that is not the text of an unsigned
64-bit word is as good as no variable at all; any text will do for the others.
-/

namespace HeartKeypad

/-- The variables that are set, with their values. -/
structure Environment where
  assigned : List (String × Text)

namespace Environment

/-- The names of the variables that settings depend on. -/
def names : List String :=
  ["HEARTCALC_BURST_COUNT", "HEARTCALC_RISE_DELAY_MS", "HEARTCALC_LIFETIME_MS",
    "HEARTCALC_TICK_MS", "HEARTCALC_EASTER_EGG_URL", "HEARTCALC_EASTER_EGG_RESULT",
    "HEARTCALC_OPEN_LINKS"]

/-- The value of a variable. -/
def text? (env : Environment) (name : String) : Option Text := env.assigned.lookup name

/-- The word that a variable holds. -/
def word? (env : Environment) (name : String) : Option UInt64 :=
  (env.text? name).bind Numeral.wordOf?

/-- What a text says on whether to open links. -/
def isYes (s : Text) : Bool :=
  s == "1".toList || s == "true".toList || s == "yes".toList

end Environment

/-- The settings of a show with those replaced that the environment gives. -/
def Effects.override (env : Environment) (e : Effects) : Effects :=
  { e with
    burst := { e.burst with
      count := (env.word? "HEARTCALC_BURST_COUNT").getD e.burst.count }
    timing := { e.timing with
      riseDelay := (env.word? "HEARTCALC_RISE_DELAY_MS").getD e.timing.riseDelay
      lifetime := (env.word? "HEARTCALC_LIFETIME_MS").getD e.timing.lifetime
      tick := (env.word? "HEARTCALC_TICK_MS").getD e.timing.tick } }

/-- The easter egg with what the environment gives in place of it. -/
def EasterEgg.override (env : Environment) (e : EasterEgg) : EasterEgg where
  url := (env.text? "HEARTCALC_EASTER_EGG_URL").getD e.url
  result := (env.text? "HEARTCALC_EASTER_EGG_RESULT").getD e.result
  openLink := ((env.text? "HEARTCALC_OPEN_LINKS").map Environment.isYes).getD e.openLink

/-- The settings with those replaced that the environment gives. -/
def Settings.override (env : Environment) (s : Settings) : Settings where
  screen := s.screen
  easterEgg := s.easterEgg.override env
  effects := s.effects.override env

end HeartKeypad
