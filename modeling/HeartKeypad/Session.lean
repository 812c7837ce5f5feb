import HeartKeypad.Json.Hearts
import HeartKeypad.Settings.Basic
import HeartKeypad.Show.Stage

/-!
# Sessions

A session ties a calculator to what decorates it: a stage that releases hearts where a
digit was tapped, and a link that is opened when the easter egg is found.

* `Session.tap` applies the key that a label stands for.
* `Session.tapLine` applies the labels of a line up to the first that stands for none.

### Design

The decorations hear of the calculator, and the calculator never hears of them.  A
burst only has to reach the mailbox of the stage; that the stage is closed, or that a
link cannot be opened, is no fault of a tap.

A session and its stage take turns.  What a session does without waiting for its stage
is a stretch; a letter that it sends is a step of the stretch, and so is a reply that it
takes.  After `Session.longestStretch` steps the stage handles what waits before the
next letter is sent, so a long line of taps may find it closed on the way.
-/

namespace HeartKeypad

/-- A link that was to be opened, and whether it could be. -/
structure Visit where
  url : Text
  reached : Bool
deriving DecidableEq

/-- A calculator with its decorations.  `reach` tells which links can be opened, and
`stretch` counts the steps since the session last let its stage work. -/
structure Session where
  settings : Settings
  calculator : Calculator
  stage : Stage
  reach : Text → Bool
  visits : List Visit
  stretch : Nat

/-- What is shown after a tap. -/
structure Response extends Face where
  burstOrigin : Option Point
  easterEgg : Bool
deriving DecidableEq

/-- The response as JSON. -/
def Response.toJson (r : Response) : Json :=
  .object [("display".toList, .string r.display),
    ("editMode".toList, r.mode.toJson),
    ("clearLabel".toList, .string r.mode.clearLabel),
    ("burstOrigin".toList, (r.burstOrigin.map Point.toJson).getD .null),
    ("easterEgg".toList, .bool r.easterEgg)]

namespace Session

/-- A session at its start, with a fresh calculator and no hearts. -/
def start (settings : Settings) (source : WordSource) (clock : Clock) (reach : Text → Bool) :
    Session :=
  ⟨settings, Calculator.fresh settings.easterEgg.result,
    Stage.start (Show.new settings.effects source) clock, reach, [], 0⟩

/-- The most steps that a session takes before it lets its stage work. -/
def longestStretch : Nat := 128

/-- Lets the stage handle its letters, which begins a stretch. -/
def settle (s : Session) : Session := { s with stage := s.stage.drain, stretch := 0 }

/-- The session with room for a step in its stretch. -/
def rested (s : Session) : Session := if s.stretch < longestStretch then s else s.settle

/-- Asks for a burst at the centre of a key.  The result is where it was released, if
the stage took the letter. -/
def release (k : Key) (s : Session) : Option Point × Session :=
  match Layout.origin? s.settings.screen k with
  | none => (none, s)
  | some origin =>
    let s := s.rested
    match s.stage.send (.burst origin) with
    | .ok (_, stage) => (some origin, { s with stage, stretch := s.stretch + 1 })
    | .error _ => (none, s)

/-- Opens the link of the easter egg, unless the settings say not to. -/
def celebrate (s : Session) : Session :=
  if s.settings.easterEgg.openLink then
    let url := s.settings.easterEgg.url
    { s with visits := s.visits ++ [⟨url, s.reach url⟩] }
  else s

/-- Does what a key press signals. -/
def decorate (k : Key) (signal : Option Signal) (s : Session) : Option Point × Session :=
  match signal with
  | some (.digitAccepted _) => s.release k
  | some .easterEgg => (none, s.celebrate)
  | none => (none, s)

/-- Presses a key. -/
def press (k : Key) (s : Session) : Response × Session :=
  let outcome := s.calculator.outcome k
  let (origin, s) := decorate k outcome.signal { s with calculator := s.calculator.press k }
  (⟨outcome.toFace, origin, decide (outcome.signal = some .easterEgg)⟩, s)

/-- Presses the key that a label stands for; an unknown label changes nothing. -/
def tap (label : Text) (s : Session) : Except UnknownLabel (Response × Session) :=
  (Key.ofLabel label).map fun k => s.press k

/-- Taps labels one after the other, up to the first unknown one.  The result is the
last response, where `last` stands for the one before. -/
def tapAll (last : Option Response) :
    List Text → Session → Except UnknownLabel (Option Response) × Session
  | [], s => (.ok last, s)
  | label :: labels, s =>
    match s.tap label with
    | .ok (r, s) => tapAll (some r) labels s
    | .error e => (.error e, s)

/-- Taps the labels on a line, which blanks separate. -/
def tapLine (line : Text) (s : Session) : Except UnknownLabel (Option Response) × Session :=
  tapAll none line.words s

/-- Changes the stage by a command that calls for no reply, or finds it closed. -/
def order (command : Command) (s : Session) : Except Closed Unit × Session :=
  let (reply, stage) := s.stage.call command
  (reply.map fun _ => (), { s with stage, stretch := 0 })

/-- The live hearts, if the stage is open.  To wait for them begins a stretch, of which
they are the first step. -/
def hearts (s : Session) : Except Closed (List Heart) × Session :=
  let (reply, stage) := s.stage.call .snapshot
  let hearts := match reply with
    | .ok (some (.hearts hs)) => .ok hs
    | _ => .error {}
  (hearts, { s with stage, stretch := 1 })

/-- The session with another reading of the clock. -/
def setClock (clock : Clock) (s : Session) : Session :=
  { s with stage := s.stage.setClock clock }

/-- Real time passes. -/
def elapse (milliseconds : Nat) (s : Session) : Session :=
  { s with stage := s.stage.elapse milliseconds }

end Session

end HeartKeypad
