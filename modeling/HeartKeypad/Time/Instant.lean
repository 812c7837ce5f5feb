import HeartKeypad.Fault

/-!
# Instants and spans

An instant is an integer: the nanoseconds since 1970-01-01T00:00:00Z.  The
calendar ends some 262 000 years on either side, and adding a span that leaves it
is a fault.

Settings give spans as unsigned 64-bit numbers of milliseconds; `Span.ofWord`
takes the word as a signed one, and the least signed word is no span.
-/

namespace HeartKeypad

namespace Instant

/-- The first instant of the year -262143. -/
def earliest : Int := -8334601228800 * 1000000000

/-- The last instant of the year 262142. -/
def latest : Int := 8210266876800 * 1000000000 - 1

/-- The instant a number of nanoseconds later, if the calendar reaches it. -/
def after (t nanoseconds : Int) : Except Fault Int :=
  if earliest ≤ t + nanoseconds ∧ t + nanoseconds ≤ latest then .ok (t + nanoseconds)
  else .error .instant

/-- The instant a number of milliseconds later, if the calendar reaches it. -/
def later (t milliseconds : Int) : Except Fault Int := after t (milliseconds * 1000000)

/-- The whole milliseconds from one instant to another, cut off toward zero. -/
def millisecondsSince (now start : Int) : Int := Int.tdiv (now - start) 1000000

end Instant

/-- A word as a signed number of milliseconds. -/
def Span.ofWord (w : UInt64) : Except Fault Int :=
  let n := w.toInt64.toInt
  if n = -9223372036854775808 then .error .span else .ok n

end HeartKeypad
