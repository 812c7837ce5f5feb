/-!
# Faults

What stops a show for good: a number of milliseconds that no span of time has, a
point in time outside the calendar, or a random range that is too wide to draw from.
No fault arises under validated settings and ordinary times.
-/

namespace HeartKeypad

/-- A computation that cannot go on. -/
inductive Fault where
  | span
  | instant
  | range
deriving DecidableEq, Repr

end HeartKeypad
