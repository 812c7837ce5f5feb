import HeartKeypad.Show.Basic
import HeartKeypad.Time.Clock

/-!
# Stages

A stage runs a show for clients who only send it letters.  Letters wait in a
mailbox and are handled one at a time, in the order in which they came; a letter
that asks for something is answered under its ticket.  Besides, a beat advances the
show to the clock at regular intervals of real time.

* `Stage.send` puts a letter into the mailbox of an open stage.
* `Stage.work` handles the letter in front, `Stage.beat` is a beat.
* `Stage.call` sends a letter and works until the mailbox is empty.

A stage closes when it is told to, or when its show is at fault.  A closed stage
takes no letters, and those that were waiting are never handled: what is still asked
then is answered by `Closed`.

### Design

Sending succeeds as soon as the letter is in the mailbox, so a burst that has been
acknowledged may still find the stage closed.  The clock is set from outside and
moves nothing by itself.
-/

namespace HeartKeypad

/-- The stage takes no letters. -/
structure Closed where
deriving DecidableEq

/-- What is said about a stage that takes no letters. -/
def Closed.message (_ : Closed) : String := "Fx driver channel closed: Fx driver stopped"

/-- What a client can ask of a stage. -/
inductive Command where
  | burst (origin : Point)
  | tick
  | cancel (id : Nat)
  | snapshot
  | shutdown
deriving DecidableEq

/-- What a stage answers to a client. -/
inductive Reply where
  | cancelled (found : Bool)
  | hearts (hearts : List Heart)
deriving DecidableEq

/-- A command with the ticket that its reply goes to. -/
structure Letter where
  ticket : Nat
  command : Command
deriving DecidableEq

/-- A stage: its show while it is open, the clock, the milliseconds of real time
since its start, the letters that wait and the replies given. -/
structure Stage where
  show? : Option Show
  clock : Clock
  elapsed : Nat
  mailbox : List Letter
  replies : List (Nat × Reply)
  nextTicket : Nat

namespace Stage

/-- A stage for a show.  Without an interval between beats it closes at once. -/
def start (s : Show) (clock : Clock) : Stage :=
  ⟨if s.effects.timing.tick = 0 then none else some s, clock, 0, [], [], 0⟩

/-- The stage is open. -/
def isOpen (st : Stage) : Bool := st.show?.isSome

/-- The stage with no show, and no letter left to handle. -/
def close (st : Stage) : Stage := { st with show? := none, mailbox := [] }

/-- The stage with its show changed, or closed if that is at fault. -/
def settle (st : Stage) : Except Fault Show → Stage
  | .ok s => { st with show? := some s }
  | .error _ => st.close

/-- Puts a letter into the mailbox; its ticket is the answer. -/
def send (command : Command) (st : Stage) : Except Closed (Nat × Stage) :=
  if st.isOpen then
    .ok (st.nextTicket, { st with
      mailbox := st.mailbox ++ [⟨st.nextTicket, command⟩]
      nextTicket := st.nextTicket + 1 })
  else .error {}

/-- The show after the timers due at an instant have fired. -/
def advanced (now : Int) (s : Show) : Except Fault Show := (s.advance now).map (·.2)

/-- Carries out a command on the show of a stage. -/
def handle (l : Letter) (s : Show) (st : Stage) : Stage :=
  match l.command with
  | .burst origin => st.settle (s.burst origin st.clock.now)
  | .tick => st.settle (advanced st.clock.now s)
  | .cancel id =>
    { st with
      show? := some (s.cancel id).2
      replies := st.replies ++ [(l.ticket, .cancelled (s.cancel id).1)] }
  | .snapshot =>
    { st with
      show? := some s
      replies := st.replies ++ [(l.ticket, .hearts s.snapshot)] }
  | .shutdown => st.close

/-- Handles the letter in front of the mailbox, if the stage is open and has one. -/
def work (st : Stage) : Stage :=
  match st.show?, st.mailbox with
  | some s, l :: ls => handle l s { st with mailbox := ls }
  | _, _ => st

/-- Handles a number of letters. -/
def workMany : Nat → Stage → Stage
  | 0, st => st
  | n + 1, st => workMany n st.work

/-- Handles letters until the mailbox is empty: handling one never adds another. -/
def drain (st : Stage) : Stage := workMany st.mailbox.length st

/-- A beat: an open stage advances its show to the clock. -/
def beat (st : Stage) : Stage :=
  match st.show? with
  | some s => st.settle (advanced st.clock.now s)
  | none => st

/-- Real time passes; a beat falls on every multiple of the interval.  Since the
clock stands still meanwhile, several beats do no more than one. -/
def elapse (milliseconds : Nat) (st : Stage) : Stage :=
  let later := { st with elapsed := st.elapsed + milliseconds }
  match st.show? with
  | some s =>
    let tick := s.effects.timing.tick.toNat
    if st.elapsed / tick < (st.elapsed + milliseconds) / tick then later.beat else later
  | none => later

/-- The stage with another reading of the clock, which moves nothing by itself. -/
def setClock (clock : Clock) (st : Stage) : Stage := { st with clock }

/-- Sends a letter and works until the mailbox is empty.  The result is the reply, if
the command asks for one. -/
def call (command : Command) (st : Stage) : Except Closed (Option Reply) × Stage :=
  match st.send command with
  | .error e => (.error e, st)
  | .ok (ticket, st) =>
    let st := st.drain
    let reply := st.replies.lookup ticket
    let asks := match command with
      | .cancel _ | .snapshot => true
      | _ => false
    if asks && reply.isNone then (.error {}, st) else (.ok reply, st)

/-- The live hearts of an open stage. -/
def hearts? (st : Stage) : Option (List Heart) := st.show?.map Show.snapshot

end Stage

end HeartKeypad
