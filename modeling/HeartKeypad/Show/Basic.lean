import HeartKeypad.Draw
import HeartKeypad.Heart.Basic
import HeartKeypad.Settings.Effects
import HeartKeypad.Show.Agenda

/-!
# Shows

A show owns the live hearts and the timers that move them.  A burst releases
hearts around a point, each with one timer to rise and one to end; advancing to an
instant fires every timer due by then, in order; cancelling takes a heart out at
once and leaves its timers behind, which then find nothing to do.

* `Show.burst`, `Show.advance`, `Show.cancel` are the three ways to change a show.
* `Show.Event` is what advancing reports.
* `Show.snapshot` lists the live hearts in the order of their birth.

### Design

Hearts are numbered in the order of their birth, so no number is ever used twice,
and new hearts go to the end of the list of live ones.  Firing a timer touches the
live hearts and the source of random words only: no timer queues another, so
advancing is a fold over the timers due, without any search for more.

A computation that cannot go on is a `Fault`; it leaves no show behind.
-/

namespace HeartKeypad

/-- Live hearts, and what will become of them. -/
structure Show where
  effects : Effects
  source : WordSource
  live : List Heart
  agenda : Agenda
  nextSeq : Nat
  nextId : Nat

namespace Show

/-- What advancing a show reports. -/
inductive Event where
  | rose (id : Nat) (target : Point)
  | expired (heart : Heart)
deriving DecidableEq

/-- The heart that an event is about. -/
def Event.id : Event → Nat
  | .rose id _ => id
  | .expired heart => heart.id

/-- A show without hearts. -/
def new (effects : Effects) (source : WordSource) : Show :=
  ⟨effects, source, [], Agenda.empty, 0, 0⟩

/-! ### Bursts -/

/-- A size drawn from the range of the settings; the lower bound, and no word drawn,
unless the upper one lies above it. -/
def drawSize (b : Burst) (w : WordSource) : Except Fault (Float × WordSource) :=
  if b.sizeMin < b.sizeMax then w.uniform b.sizeMin b.sizeMax else .ok (b.sizeMin, w)

/-- A point at random offsets from another. -/
def drawPoint (x y spreadX spreadY : Float) (w : WordSource) :
    Except Fault (Point × WordSource) := do
  let (dx, w) ← w.jitter spreadX
  let (dy, w) ← w.jitter spreadY
  .ok (⟨x + dx, y + dy⟩, w)

/-- Releases one heart, with timers at the given instants. -/
def release (origin : Point) (now riseAt endAt : Int) (s : Show) : Except Fault Show := do
  let b := s.effects.burst
  let (position, w) ← drawPoint origin.x origin.y b.jitterX b.jitterY s.source
  let (size, w) ← drawSize b w
  let (color, w) := w.third
  let heart : Heart :=
    ⟨s.nextId, position, position, size, Color.ofIndex color, .spawned, now, none⟩
  .ok { s with
    source := w
    live := s.live ++ [heart]
    agenda := (s.agenda.insert ⟨riseAt, s.nextSeq, s.nextId, .rise⟩).insert
      ⟨endAt, s.nextSeq + 1, s.nextId, .expire⟩
    nextSeq := s.nextSeq + 2
    nextId := s.nextId + 1 }

/-- Releases a number of hearts, one after the other. -/
def releaseMany (origin : Point) (now riseAt endAt : Int) :
    Nat → Show → Except Fault Show
  | 0, s => .ok s
  | n + 1, s => do
    let s ← s.release origin now riseAt endAt
    releaseMany origin now riseAt endAt n s

/-- Releases a burst of hearts around a point. -/
def burst (origin : Point) (now : Int) (s : Show) : Except Fault Show := do
  let riseDelay ← Span.ofWord s.effects.timing.riseDelay
  let riseAt ← Instant.later now riseDelay
  let lifetime ← Span.ofWord s.effects.timing.lifetime
  let endAt ← Instant.later now lifetime
  s.releaseMany origin now riseAt endAt s.effects.burst.count.toNat

/-! ### Advancing -/

/-- The live heart with a number. -/
def get? (s : Show) (id : Nat) : Option Heart := s.live.find? (·.id == id)

/-- The show without a heart. -/
def remove (s : Show) (id : Nat) : Show :=
  { s with live := s.live.filter (·.id != id) }

/-- The show with a heart in place of the one with its number. -/
def replace (s : Show) (heart : Heart) : Show :=
  { s with live := s.live.map fun h => if h.id == heart.id then heart else h }

/-- Lets a heart that waits rise at an instant; any other is left alone. -/
def raise (id : Nat) (due : Int) (s : Show) : Except Fault (List Event × Show) :=
  match s.get? id with
  | some heart =>
    if heart.phase = .spawned then do
      let r := s.effects.rise
      let (target, w) ← drawPoint heart.position.x r.topOffset r.jitterX r.jitterY s.source
      let risen := { heart with target, phase := .rising, riseStartedAt := some due }
      .ok ([.rose id target], { s.replace risen with source := w })
    else .ok ([], s)
  | none => .ok ([], s)

/-- Ends a heart, if it is live. -/
def finish (id : Nat) (s : Show) : List Event × Show :=
  match s.get? id with
  | some heart => ([.expired { heart with phase := .expired }], s.remove id)
  | none => ([], s)

/-- Fires a timer. -/
def fire (t : Timer) (s : Show) : Except Fault (List Event × Show) :=
  match t.effect with
  | .rise => s.raise t.heart t.due
  | .expire => .ok (s.finish t.heart)

/-- Fires timers one after the other, and reports what they did. -/
def fireAll : List Timer → Show → Except Fault (List Event × Show)
  | [], s => .ok ([], s)
  | t :: ts, s => do
    let (events, s) ← s.fire t
    let (more, s) ← fireAll ts s
    .ok (events ++ more, s)

/-- Fires every timer due at an instant. -/
def advance (now : Int) (s : Show) : Except Fault (List Event × Show) :=
  fireAll (s.agenda.due now) { s with agenda := s.agenda.after now }

/-! ### Cancelling and looking -/

/-- Takes a heart out, and says whether it was live. -/
def cancel (id : Nat) (s : Show) : Bool × Show :=
  ((s.get? id).isSome, s.remove id)

/-- The live hearts, in the order of their birth. -/
def snapshot (s : Show) : List Heart := s.live

/-- The number of timers queued, those of hearts no longer live included. -/
def pendingTimers (s : Show) : Nat := s.agenda.timers.length

/-- When the next timer is due. -/
def nextDeadline? (s : Show) : Option Int := s.agenda.next?

end Show

end HeartKeypad
