import HeartKeypad.Time.Instant

/-!
# Clocks

A clock shows an instant, and moves only when it is moved: forward or back by a span, or
straight to an instant.
-/

namespace HeartKeypad

/-- A clock that is moved by hand. -/
structure Clock where
  now : Int := 0
deriving DecidableEq

namespace Clock

/-- The clock moved by a number of nanoseconds, if the calendar reaches that far. -/
def advance (nanoseconds : Int) (c : Clock) : Except Fault Clock :=
  (Instant.after c.now nanoseconds).map Clock.mk

/-- The clock moved to an instant. -/
def set (instant : Int) (_ : Clock) : Clock := ⟨instant⟩

end Clock

end HeartKeypad
