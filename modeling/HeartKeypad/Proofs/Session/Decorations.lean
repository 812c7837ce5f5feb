import HeartKeypad.Session
import Mathlib.Data.List.Basic

/-!
# The calculator never hears of its decorations

A session answers a tap with what the calculator shows and with what became of the decorations.
The first half of the answer is the calculator's own: it is the same in any two sessions that
are tapped alike, whatever their settings are, whatever goes on behind their stages and whether
or not links open.

* `Session.Turn` — what can happen to a session, a tap or something that no tap asked for.
* `Calculator.tell` — what a calculator answers that has no decorations.
* `Session.answers_told` — a session tells what its calculator alone would tell.
* `Session.answers_alike` — hence two sessions that are tapped alike show the same.

### What may happen between two taps

A stage goes on by itself: it handles letters, advances with the clock, closes on a fault.  So
between any two taps it may be changed by any function at all, `Stage.work`, `Stage.beat`
and `Stage.close` among them, and links may open or fail from then on.  A stage that closes
while a key is being pressed is one that closed right before: the calculator has done its part
by the time the letter is sent.
-/

namespace HeartKeypad

/-- An outcome finds the easter egg. -/
def Outcome.easterEgg (o : Outcome) : Bool := decide (o.signal = some .easterEgg)

/-- What is shown of a face: the display, the mode and the label of the clear key. -/
def Face.shown (f : Face) : Text × Mode × Text := (f.display, f.mode, f.mode.clearLabel)

namespace Calculator

/-- What a calculator answers to labels by itself; an unknown one leaves it as it was. -/
def tell : List Text → Calculator → List (Except UnknownLabel Outcome)
  | [], _ => []
  | label :: labels, c =>
    match Key.ofLabel label with
    | .ok k => .ok (c.outcome k) :: tell labels (c.press k)
    | .error e => .error e :: tell labels c

theorem length_tell (labels : List Text) (c : Calculator) :
    (c.tell labels).length = labels.length := by
  induction labels generalizing c with
  | nil => rfl
  | cons label labels ih =>
      rw [tell]
      split <;> simp [ih]

/-- **What a key shows does not depend on the easter egg.** -/
theorem toFace_press_congr {c d : Calculator} (same : c.toFace = d.toFace) (k : Key) :
    (c.press k).toFace = (d.press k).toFace := by
  obtain ⟨face, egg⟩ := c
  obtain ⟨_, egg'⟩ := d
  obtain rfl := same
  cases k with
  | digit d => rfl
  | mark m => rfl
  | equal => rfl
  | clear =>
      simp only [press, pressClear]
      split <;> rfl
  | percent =>
      simp only [press, pressPercent]
      split <;> rfl
  | negate =>
      simp only [press, pressNegate]
      split <;> rfl

/-- Nor does what any number of labels show. -/
theorem toFace_tell_congr {c d : Calculator} (same : c.toFace = d.toFace) (labels : List Text) :
    (c.tell labels).map (Except.map Outcome.toFace) =
      (d.tell labels).map (Except.map Outcome.toFace) := by
  induction labels generalizing c d with
  | nil => rfl
  | cons label labels ih =>
      rw [tell, tell]
      split
      · rename_i k known
        have now : (c.outcome k).toFace = (d.outcome k).toFace := toFace_press_congr same k
        simp [Except.map, now, ih (toFace_press_congr same k)]
      · simp [Except.map, ih same]

end Calculator

namespace Session

/-- **What can happen to a session**: a label is tapped, the stage changes, or from now on links
open or fail in another way. -/
inductive Turn where
  | tap (label : Text)
  | stage (change : Stage → Stage)
  | links (reach : Text → Bool)

/-- The label that is tapped in a turn. -/
def Turn.label? : Turn → Option Text
  | .tap label => some label
  | _ => none

/-- The labels that are tapped in a number of turns. -/
def labels (turns : List Turn) : List Text := turns.filterMap Turn.label?

/-- The answer to a turn, if it is a tap, and the session after it. -/
def turn : Turn → Session → Option (Except UnknownLabel Response) × Session
  | .tap label, s =>
    match s.tap label with
    | .ok (r, s) => (some (.ok r), s)
    | .error e => (some (.error e), s)
  | .stage change, s => (none, { s with stage := change s.stage })
  | .links reach, s => (none, { s with reach })

/-- The answers to the taps of a number of turns, in order. -/
def answers : List Turn → Session → List (Except UnknownLabel Response)
  | [], _ => []
  | t :: turns, s => (s.turn t).1.toList ++ answers turns (s.turn t).2

/-! ### The decorations leave the calculator alone -/

theorem calculator_rested (s : Session) : s.rested.calculator = s.calculator := by
  unfold rested
  split <;> rfl

theorem calculator_release (k : Key) (s : Session) :
    (s.release k).2.calculator = s.calculator := by
  unfold release
  split
  · rfl
  · dsimp only
    split <;> exact calculator_rested s

theorem calculator_celebrate (s : Session) : s.celebrate.calculator = s.calculator := by
  unfold celebrate
  split <;> rfl

theorem calculator_decorate (k : Key) (signal : Option Signal) (s : Session) :
    (decorate k signal s).2.calculator = s.calculator := by
  unfold decorate
  split
  · exact calculator_release k s
  · exact calculator_celebrate s
  · rfl

/-- **A key does to the calculator what it would do without decorations.** -/
theorem calculator_press (k : Key) (s : Session) :
    (s.press k).2.calculator = s.calculator.press k :=
  calculator_decorate k _ _

/-- A label that is tapped is answered, and an unknown one changes nothing. -/
theorem turn_tap (label : Text) (s : Session) :
    s.turn (.tap label) = match Key.ofLabel label with
      | .ok k => (some (.ok (s.press k).1), (s.press k).2)
      | .error e => (some (.error e), s) := by
  cases known : Key.ofLabel label <;> simp [turn, tap, known, Except.map]

/-! ### Any number of turns -/

/-- **A session tells what its calculator alone would tell**: whatever is made of the face and of
the easter egg, the decorations make no difference to it. -/
theorem answers_told {α : Type} (told : Face → Bool → α) (turns : List Turn) (s : Session) :
    (s.answers turns).map (Except.map fun r => told r.toFace r.easterEgg) =
      (s.calculator.tell (labels turns)).map (Except.map fun o => told o.toFace o.easterEgg) := by
  induction turns generalizing s with
  | nil => rfl
  | cons t turns ih =>
      cases t with
      | stage change => exact ih _
      | links reach => exact ih _
      | tap label =>
          rw [answers, turn_tap, List.map_append, ih]
          show _ = (s.calculator.tell (label :: labels turns)).map _
          rw [Calculator.tell]
          cases Key.ofLabel label with
          | error e => rfl
          | ok k =>
              dsimp only
              rw [calculator_press]
              rfl

/-- Every tap is answered. -/
theorem length_answers (turns : List Turn) (s : Session) :
    (s.answers turns).length = (labels turns).length := by
  have told := congrArg List.length (s.answers_told (fun _ _ => ()) turns)
  rw [List.length_map, List.length_map, Calculator.length_tell] at told
  exact told

/-- Two sessions whose calculators show the same go on to show the same. -/
theorem answers_shown_congr {s t : Session} (same : s.calculator.toFace = t.calculator.toFace)
    {turns turns' : List Turn} (alike : labels turns = labels turns') :
    (s.answers turns).map (Except.map fun r => r.toFace.shown) =
      (t.answers turns').map (Except.map fun r => r.toFace.shown) := by
  have shown : ∀ c : Calculator, (c.tell (labels turns)).map (Except.map fun o => o.toFace.shown) =
      ((c.tell (labels turns)).map (Except.map Outcome.toFace)).map (Except.map Face.shown) := by
    intro c
    rw [List.map_map]
    refine List.map_congr_left fun answer _ => ?_
    cases answer <;> rfl
  rw [answers_told (fun f _ => f.shown), answers_told (fun f _ => f.shown), ← alike, shown, shown,
    Calculator.toFace_tell_congr same]

/-- **The calculator is not affected by its decorations.**  Two sessions are started under any
settings, with any words to draw from, any clocks and any links; their stages change in any way
between the taps, and so do the links.  If the same labels are tapped, all of them are answered
in both, with the same display, mode and label of the clear key, or with the same unknown label;
and if the same result sets off the easter egg, it is found at the same taps. -/
theorem answers_alike {settings settings' : Settings} {source source' : WordSource}
    {clock clock' : Clock} {reach reach' : Text → Bool} {turns turns' : List Turn}
    (alike : labels turns = labels turns') :
    ((start settings source clock reach).answers turns).length = (labels turns).length ∧
    ((start settings source clock reach).answers turns).map
        (Except.map fun r => r.toFace.shown) =
      ((start settings' source' clock' reach').answers turns').map
        (Except.map fun r => r.toFace.shown) ∧
    (settings.easterEgg.result = settings'.easterEgg.result →
      ((start settings source clock reach).answers turns).map (Except.map Response.easterEgg) =
        ((start settings' source' clock' reach').answers turns').map
          (Except.map Response.easterEgg)) := by
  have fresh : (start settings source clock reach).calculator.toFace =
      (start settings' source' clock' reach').calculator.toFace := rfl
  refine ⟨length_answers turns _, answers_shown_congr fresh alike, fun same => ?_⟩
  have calculator : (start settings source clock reach).calculator =
      (start settings' source' clock' reach').calculator := by
    show Calculator.fresh settings.easterEgg.result = Calculator.fresh settings'.easterEgg.result
    rw [same]
  rw [answers_told (fun _ egg => egg), answers_told (fun _ egg => egg), calculator, alike]

/-- Two sevens, something that is no label, and `=`. -/
def sevens : List Turn := [.tap ['7'], .tap ['?'], .tap ['7'], .tap ['=']]

/-- The same labels, while no link opens and the stage closes on the way. -/
def outage : List Turn :=
  [.links fun _ => false, .tap ['7'], .stage Stage.close, .tap ['?'], .tap ['7'], .tap ['=']]

/-- Sevens on a wide screen, and on the usual one with an outage: the hearts of the second seven
are missing, and nothing else. -/
theorem answers_alike_in_outage :
    let wide : Settings := { screen := { width := 800.0 }, easterEgg := { result := ['7', '7'] } }
    let usual : Settings := { easterEgg := { result := ['7', '7'], openLink := false } }
    let first := (start wide ⟨[], 1⟩ ⟨0⟩ fun _ => true).answers sevens
    let second := (start usual ⟨[3], 2⟩ ⟨5⟩ fun _ => true).answers outage
    labels sevens = labels outage ∧ wide.easterEgg.result = usual.easterEgg.result ∧
      first.map (Except.map fun r => r.burstOrigin.isSome) =
        [.ok true, .error ⟨['?']⟩, .ok true, .ok false] ∧
      second.map (Except.map fun r => r.burstOrigin.isSome) =
        [.ok true, .error ⟨['?']⟩, .ok false, .ok false] ∧
      first.map (Except.map fun r => r.toFace.shown) =
        second.map (Except.map fun r => r.toFace.shown) ∧
      first.map (Except.map Response.easterEgg) = second.map (Except.map Response.easterEgg) := by
  intro wide usual first second
  have same : labels sevens = labels outage := rfl
  have egg : wide.easterEgg.result = usual.easterEgg.result := rfl
  obtain ⟨-, shown, found⟩ := @answers_alike wide usual ⟨[], 1⟩ ⟨[3], 2⟩ ⟨0⟩ ⟨5⟩
    (fun _ => true) (fun _ => true) sevens outage same
  exact ⟨same, egg, by decide, by decide, shown, found egg⟩

end Session

end HeartKeypad
