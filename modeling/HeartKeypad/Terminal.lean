import HeartKeypad.Session
import HeartKeypad.Settings.Load

/-!
# The terminal

The terminal reads lines and answers each: `quit` and `exit` end it, `hearts` and
`state` show what there is, and every other line holds labels to be tapped.

* `Terminal.turn` answers one line; time passes between lines only.
* `Terminal.run` answers lines while the clock stands still.

### Design

A line is given as its bytes, with the newline that ends it, and is read when it is its
turn.  What a turn prints is part of its result, so that a turn is a function.
-/

namespace HeartKeypad

/-- What is asked for on a line. -/
inductive Request where
  | nothing
  | quit
  | hearts
  | state
  | taps (labels : Text)
deriving DecidableEq

/-- The request on a line; blanks around it do not matter. -/
def Request.ofLine (line : Text) : Request :=
  let bare := line.trim
  if bare = [] then .nothing
  else if bare = "quit".toList ∨ bare = "exit".toList then .quit
  else if bare = "hearts".toList then .hearts
  else if bare = "state".toList then .state
  else .taps bare

/-- A piece of text that the terminal prints, as output or as a complaint. -/
inductive Print where
  | output (text : Text)
  | complaint (text : Text)
deriving DecidableEq

/-- Why the terminal gives up. -/
inductive Failure where
  | settings (fault : LoadFault SettingsFault)
  | input (fault : Utf8Fault)
  | stage (closed : Closed)
deriving DecidableEq

/-- What is said about a stage that is closed. -/
def Closed.report (c : Closed) : String := "Particle effects unavailable: " ++ c.message

/-- What is said about the terminal giving up. -/
def Failure.message : Failure → String
  | .settings fault => SettingsFault.loadReport fault
  | .input fault => unreadableReport fault.message
  | .stage closed => closed.report

/-- A terminal: its session, and where the numbers of its hearts come from. -/
structure Terminal where
  session : Session
  seed : UInt64

/-- What comes of a turn: the terminal goes on, or it has come to its end. -/
inductive Turn where
  | goesOn (printed : List Print) (terminal : Terminal)
  | ends (result : Except Failure Unit)

namespace Terminal

/-- A terminal at its start, which opens no links. -/
def start (settings : Settings) (seed : UInt64) (clock : Clock) : Terminal :=
  ⟨Session.start settings ⟨[], seed⟩ clock fun _ => false, seed⟩

/-- What is printed at the start. -/
def greeting (t : Terminal) : List Print := [.output t.session.calculator.display]

/-- The universally unique number of a heart. -/
def uniqueId (t : Terminal) (h : Heart) : UniqueId :=
  let counter := t.seed + UInt64.ofNat (2 * h.id + 1) * WordSource.stride
  UniqueId.ofWords (WordSource.mix counter) (WordSource.mix (counter + WordSource.stride))

/-- Hearts as they are printed. -/
def heartsText (t : Terminal) (hearts : List Heart) : Text :=
  (Json.array (hearts.map fun h => h.toJson (t.uniqueId h).toJson)).pretty

/-- A response as it is printed: the display, and the label of the clear key. -/
def responseText (r : Response) : Text :=
  r.display ++ "    [".toList ++ r.mode.clearLabel ++ [']']

/-- The terminal with its session changed, once the stage has caught up. -/
def continuing (t : Terminal) (printed : List Print) (s : Session) : Turn :=
  .goesOn printed { t with session := s.settle }

/-- The terminal with the clock as it is some milliseconds after the line before. -/
def wait (clock : Clock) (milliseconds : Nat) (t : Terminal) : Terminal :=
  { t with session := (t.session.setClock clock).elapse milliseconds }

/-- Closes the stage. -/
def finish (t : Terminal) : Except Failure Unit :=
  (t.session.order .shutdown).1.mapError .stage

/-- Answers a request. -/
def answer (t : Terminal) : Request → Turn
  | .nothing => t.continuing [] t.session
  | .quit => .ends t.finish
  | .hearts =>
    match t.session.hearts with
    | (.ok hearts, s) => t.continuing [.output (t.heartsText hearts)] s
    | (.error closed, _) => .ends (.error (.stage closed))
  | .state => t.continuing [.output t.session.calculator.toFace.toJson.compact] t.session
  | .taps labels =>
    match t.session.tapLine labels with
    | (.ok (some r), s) => t.continuing [.output (responseText r)] s
    | (.ok none, s) => t.continuing [] s
    | (.error e, s) => t.continuing [.complaint e.message.toList] s

/-- Answers a line. -/
def turn (t : Terminal) (line : List UInt8) : Turn :=
  match Utf8.decode line with
  | .error fault => .ends (.error (.input fault))
  | .ok text => t.answer (Request.ofLine text)

/-- Answers lines one after the other, up to the end or the first one that ends it. -/
def run (t : Terminal) : List (List UInt8) → List Print × Except Failure Unit
  | [] => ([], t.finish)
  | line :: lines =>
    match t.turn line with
    | .ends result => ([], result)
    | .goesOn printed t =>
      let (more, result) := run t lines
      (printed ++ more, result)

/-- Bytes cut behind each newline. -/
def linesOf : List UInt8 → List (List UInt8)
  | [] => []
  | b :: bs =>
    if b = 10 then [b] :: linesOf bs
    else match linesOf bs with
      | [] => [[b]]
      | line :: lines => (b :: line) :: lines

/-- What the program does with its input: it loads the settings, greets, and answers
lines. -/
def program (file : Stored) (env : Environment) (seed : UInt64) (clock : Clock)
    (input : List UInt8) : List Print × Except Failure Unit :=
  match Settings.load file env with
  | .error fault => ([], .error (.settings fault))
  | .ok settings =>
    let t := start settings seed clock
    let (printed, result) := t.run (linesOf input)
    (t.greeting ++ printed, result)

end Terminal

end HeartKeypad
