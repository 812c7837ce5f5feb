import HeartKeypad.Show.Stage
import HeartKeypad.Proofs.Show.History

/-!
# Houses

A house is a stage together with the clients who know of it.  Any number of them call at it,
pass its address on and leave, while the stage works, a beat falls and the clock is set; all
this comes in any order.  A client whose call asks for nothing goes on as soon as the letter is
in the mailbox, and one that asks for something waits for the reply.

* `House.move`, `House.play` — one move, and a play of many.
* `House.script` — what a play lets the stage do, in order and with the time on the clock.
* `House.result?` — what a call has come to.

### Moves and moments

A move stands for the moment from which on others can see what happened: a call for that at
which the mailbox takes the letter, the last letter of a stage for that at which the mailbox is
gone.  A mailbox of limited size and a client that waits for room in it only rule out some
plays, so what holds of every play holds for every size.

### Scripts and plain shows

`Cue.action?` turns each cue of a script into what a plain show would be asked to do, and
`Command.reply?` says what such a show would reply.
-/

namespace HeartKeypad

/-! ### Commands and what a plain show makes of them -/

namespace Command

/-- The command asks for a reply. -/
def asks : Command → Bool
  | cancel _ | snapshot => true
  | burst _ | tick | shutdown => false

/-- What a show is asked to do by a command that is handled at an instant. -/
def action? (now : Int) : Command → Option Show.Action
  | burst origin => some (.burst origin now)
  | tick => some (.advance now)
  | cancel id => some (.cancel id)
  | snapshot | shutdown => none

/-- What a show replies to a command. -/
def reply? (s : Show) : Command → Option Reply
  | cancel id => some (.cancelled (s.cancel id).1)
  | snapshot => some (.hearts s.snapshot)
  | burst _ | tick | shutdown => none

end Command

/-- What a stage does with its show: it handles a letter, or a beat falls, at an instant. -/
inductive Cue where
  | letter (letter : Letter) (now : Int)
  | beat (now : Int)
deriving DecidableEq

namespace Cue

/-- The letter that is handled. -/
def letter? : Cue → Option Letter
  | letter l _ => some l
  | beat _ => none

/-- What a show is asked to do. -/
def action? : Cue → Option Show.Action
  | letter l now => l.command.action? now
  | beat now => some (.advance now)

/-- What a show replies to the letter that is handled, under its ticket. -/
def reply? (s : Show) : Cue → Option (Nat × Reply)
  | letter l _ => (l.command.reply? s).map fun r => (l.ticket, r)
  | beat _ => none

/-- The letters that are handled, in order. -/
def letters (cues : List Cue) : List Letter := cues.filterMap letter?

/-- The history that a plain show would be asked for. -/
def actions (cues : List Cue) : List Show.Action := cues.filterMap action?

@[simp] theorem letters_nil : letters [] = [] := rfl

@[simp] theorem letters_append (as bs : List Cue) : letters (as ++ bs) = letters as ++ letters bs :=
  List.filterMap_append

@[simp] theorem letters_letter (l : Letter) (now : Int) (cues : List Cue) :
    letters (letter l now :: cues) = l :: letters cues := rfl

@[simp] theorem letters_beat (now : Int) (cues : List Cue) :
    letters (beat now :: cues) = letters cues := rfl

theorem actions_singleton (c : Cue) : actions [c] = c.action?.toList := by
  rw [actions, List.filterMap_cons]
  cases c.action? <;> rfl

@[simp] theorem actions_append (as bs : List Cue) : actions (as ++ bs) = actions as ++ actions bs :=
  List.filterMap_append

end Cue

/-! ### Houses -/

/-- A call: who called for what, and the ticket it was given, unless the stage was closed. -/
structure Call where
  client : Nat
  command : Command
  ticket? : Option Nat
deriving DecidableEq

/-- The letter of a call. -/
def Call.letter? (c : Call) : Option Letter := c.ticket?.map fun ticket => ⟨ticket, c.command⟩

/-- A stage, the clients who know of it, and the calls made so far. -/
structure House where
  stage : Stage
  clients : List Nat
  calls : List Call

namespace House

/-- What can happen next in a house. -/
inductive Move where
  | call (client : Nat) (command : Command)
  | share (client other : Nat)
  | leave (client : Nat)
  | work
  | beat
  | setClock (clock : Clock)

/-- A house at its start, with one client. -/
def start (effects : Effects) (source : WordSource) (clock : Clock) : House :=
  ⟨Stage.start (Show.new effects source) clock, [0], []⟩

/-- A client calls, and the mailbox takes the letter if the stage is open. -/
def call (client : Nat) (command : Command) (h : House) : House :=
  match h.stage.send command with
  | .ok (ticket, stage) =>
    { h with stage, calls := h.calls ++ [⟨client, command, some ticket⟩] }
  | .error _ => { h with calls := h.calls ++ [⟨client, command, none⟩] }

/-- The stage works: it handles the letter in front, and closes when none is left and nobody is
there to send another. -/
def work (h : House) : House :=
  if h.clients = [] ∧ h.stage.mailbox = [] then { h with stage := h.stage.close }
  else { h with stage := h.stage.work }

/-- The house after a move.  Only a client who knows of the stage can call at it, or let others
know. -/
def move (m : Move) (h : House) : House :=
  match m with
  | .call client command => if client ∈ h.clients then h.call client command else h
  | .share client other =>
    if client ∈ h.clients then { h with clients := other :: h.clients } else h
  | .leave client => { h with clients := h.clients.erase client }
  | .work => h.work
  | .beat => { h with stage := h.stage.beat }
  | .setClock clock => { h with stage := h.stage.setClock clock }

/-- The house after a number of moves. -/
def play : List Move → House → House
  | [], h => h
  | m :: ms, h => play ms (h.move m)

/-- What a move lets the stage do with its show. -/
def cue? (m : Move) (h : House) : Option Cue :=
  match m with
  | .work =>
    match h.stage.show?, h.stage.mailbox with
    | some _, l :: _ =>
      if l.command = .shutdown then none else some (.letter l h.stage.clock.now)
    | _, _ => none
  | .beat => h.stage.show?.map fun _ => .beat h.stage.clock.now
  | .call _ _ | .share _ _ | .leave _ | .setClock _ => none

/-- **The script of a play**: all that it lets the stage do with its show. -/
def script : List Move → House → List Cue
  | [], _ => []
  | m :: ms, h => (h.cue? m).toList ++ script ms (h.move m)

/-- The letters that the mailbox has taken, in order. -/
def taken (h : House) : List Letter := h.calls.filterMap Call.letter?

/-- The letters taken before the first one that closes the stage. -/
def inTime (h : House) : List Letter := h.taken.takeWhile fun l => l.command != .shutdown

/-- **What a call has come to**: a reply, or none if it asks for nothing, or that the stage is
closed.  A call that still waits has come to nothing yet. -/
def result? (h : House) (c : Call) : Option (Except Closed (Option Reply)) :=
  match c.ticket? with
  | none => some (.error {})
  | some ticket =>
    if c.command.asks then
      match h.stage.replies.lookup ticket with
      | some reply => some (.ok (some reply))
      | none => if h.stage.isOpen then none else some (.error {})
    else some (.ok none)

end House

end HeartKeypad
