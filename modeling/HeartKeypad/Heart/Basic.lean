import HeartKeypad.Time.Instant

/-!
# Hearts

A heart is born at a point, waits, rises to a target for as long as the animation
lasts, and ends.  Its phase tells which part of its life it is in; only timers
move it from one phase to the next.

* `Point.toward` interpolates between two points.
* `Heart.positionAt` is where a heart is drawn at a given instant.
-/

namespace HeartKeypad

/-- A point of the screen. -/
structure Point where
  x : Float
  y : Float
deriving DecidableEq

/-- A number moved into `[0, 1]`; not a number stays as it is. -/
def unitClamp (t : Float) : Float :=
  if t < 0.0 then 0.0 else if 1.0 < t then 1.0 else t

/-- The coordinate at the fraction `t` of the way. -/
def blend (start finish t : Float) : Float := start + (finish - start) * t

/-- The point at a fraction of the way to another, none of it below zero and all
of it above one. -/
def Point.toward (p q : Point) (t : Float) : Point :=
  let t := unitClamp t
  ⟨blend p.x q.x t, blend p.y q.y t⟩

/-- The color of a heart. -/
inductive Color where
  | pink
  | red
  | purple
deriving DecidableEq, Repr

/-- The palette that colors are drawn from. -/
def Color.ofIndex : Fin 3 → Color
  | 0 => .pink
  | 1 => .red
  | 2 => .purple

/-- The part of its life that a heart is in. -/
inductive Phase where
  | spawned
  | rising
  | expired
deriving DecidableEq, Repr

/-- A heart of a show, known by the number of hearts before it. -/
structure Heart where
  id : Nat
  position : Point
  target : Point
  size : Float
  color : Color
  phase : Phase
  createdAt : Int
  riseStartedAt : Option Int
deriving DecidableEq

namespace Heart

/-- Where a heart is drawn: at its position until it rises, and from then on at
the fraction of the way that the whole milliseconds passed are of the animation.
An animation without a length ends at once. -/
def positionAt (h : Heart) (now animation : Int) : Point :=
  match h.riseStartedAt with
  | none => h.position
  | some start =>
    if animation ≤ 0 then h.target
    else
      let elapsed := Instant.millisecondsSince now start
      h.position.toward h.target (Float.ofInt elapsed / Float.ofInt animation)

/-- The time since a heart was born. -/
def age (h : Heart) (now : Int) : Int := now - h.createdAt

end Heart

end HeartKeypad
