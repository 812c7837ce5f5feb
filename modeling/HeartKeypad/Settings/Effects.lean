import HeartKeypad.Number.Written

/-!
# The settings of a show

How many hearts a key releases, where they appear and rise to, and when.

`Effects.fault?` is the first rule that settings break; settings that break none
let a show run without a `Fault` at ordinary times.
-/

namespace HeartKeypad

/-- How hearts are released. -/
structure Burst where
  count : UInt64 := 15
  jitterX : Float := 20.0
  jitterY : Float := 10.0
  sizeMin : Float := 8.0
  sizeMax : Float := 14.0
deriving DecidableEq

/-- Where hearts rise to. -/
structure Rise where
  topOffset : Float := 50.0
  jitterX : Float := 20.0
  jitterY : Float := 30.0
deriving DecidableEq

/-- When hearts rise and end, in milliseconds. -/
structure Timing where
  riseDelay : UInt64 := 10
  lifetime : UInt64 := 2100
  animation : UInt64 := 2000
  tick : UInt64 := 16
deriving DecidableEq

/-- The settings of a show. -/
structure Effects where
  burst : Burst := {}
  rise : Rise := {}
  timing : Timing := {}
deriving DecidableEq

/-- A rule that the settings of a show break. -/
inductive EffectsFault where
  | noHearts
  | offset (name : String) (value : Float)
  | sizes (least most : Float)
  | topOffset
  | riseAfterEnd (riseDelay lifetime : UInt64)
  | longLife
  | noTick
deriving DecidableEq

/-- The longest lifetime allowed, in milliseconds. -/
def Timing.longestLifetime : UInt64 := 60000

/-- What is said about a broken rule. -/
def EffectsFault.message : EffectsFault → String
  | .noHearts => "burst.count must be greater than 0"
  | .offset name value =>
    name ++ " must be a finite, non-negative number, got " ++
      String.ofList (Written.shortest value)
  | .sizes least most =>
    "burst size range [" ++ String.ofList (Written.shortest least) ++ ", " ++
      String.ofList (Written.shortest most) ++ "] is invalid"
  | .topOffset => "rise.top_offset must be finite"
  | .riseAfterEnd riseDelay lifetime =>
    "rise_delay_ms (" ++ toString riseDelay.toNat ++
      ") must be less than lifetime_ms (" ++ toString lifetime.toNat ++ ")"
  | .longLife => "lifetime_ms must be at most " ++ toString Timing.longestLifetime.toNat
  | .noTick => "tick_ms must be greater than 0"

namespace Effects

/-- An offset must be a finite number that is not negative. -/
def offsetFault? (name : String) (value : Float) : Option EffectsFault :=
  if !value.isFinite || value < 0.0 then some (.offset name value) else none

/-- A range of sizes must be finite and above zero. -/
def sizesFault? (least most : Float) : Option EffectsFault :=
  if !least.isFinite || !most.isFinite || least ≤ 0.0 || most < least then
    some (.sizes least most)
  else none

/-- The first rule that the settings break. -/
def fault? (e : Effects) : Option EffectsFault :=
  if e.burst.count = 0 then some .noHearts else
  (offsetFault? "burst.jitter_x" e.burst.jitterX).or <|
  (offsetFault? "burst.jitter_y" e.burst.jitterY).or <|
  (offsetFault? "rise.jitter_x" e.rise.jitterX).or <|
  (offsetFault? "rise.jitter_y" e.rise.jitterY).or <|
  (sizesFault? e.burst.sizeMin e.burst.sizeMax).or <|
  if !e.rise.topOffset.isFinite then some .topOffset
  else if e.timing.lifetime ≤ e.timing.riseDelay then
    some (.riseAfterEnd e.timing.riseDelay e.timing.lifetime)
  else if Timing.longestLifetime < e.timing.lifetime then some .longLife
  else if e.timing.tick = 0 then some .noTick
  else none

end Effects

end HeartKeypad
