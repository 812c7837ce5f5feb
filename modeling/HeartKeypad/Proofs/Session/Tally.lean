import HeartKeypad.Proofs.Session.Decorations
import HeartKeypad.Proofs.Stage.Count

/-!
# What the decorations of a session amount to

While the clock stands still and the stage stays open, the decorations of a session can be
counted from the labels that were tapped: a burst for every digit and nothing else on the
stage, and a visit to the link for every easter egg that was found.

* `Session.Turn.Still` — the turns that leave the clock alone.
* `Session.after`, `Session.keys` — the session after some turns, and the keys they pressed.
* `Session.Tally` — what the decorations amount to.
* `Session.tally_of_turns` — they do so after any such turns from the start.

### When the letters are handled

The hearts of a tap may come much later than its answer: the stage may work at any moment, let
time pass and advance in between, or wait until the session rests.  `Stage.Accounts` counts
letters and hearts together, so that the sum depends on the taps alone (`Session.Tallied.turn`).
-/

namespace HeartKeypad

/-- **Every digit has its place on the keypad.** -/
theorem Layout.isSome_origin?_digit (screen : Screen) (d : Digit) :
    (origin? screen (.digit d)).isSome = true := by
  rw [origin?, Option.isSome_map]
  revert d
  decide

/-- Only a digit is accepted, and every digit is. -/
theorem Calculator.signal_cases (k : Key) (c : Calculator) :
    (∃ d, k = .digit d ∧ c.signal k = some (.digitAccepted d)) ∨
      k.isDigit = false ∧ (c.signal k = some .easterEgg ∨ c.signal k = none) := by
  cases k with
  | digit d => exact Or.inl ⟨d, rfl, rfl⟩
  | equal =>
      refine Or.inr ⟨rfl, ?_⟩
      rw [signal]
      split
      · exact Or.inl rfl
      · exact Or.inr rfl
  | mark m => exact Or.inr ⟨rfl, Or.inr rfl⟩
  | clear => exact Or.inr ⟨rfl, Or.inr rfl⟩
  | percent => exact Or.inr ⟨rfl, Or.inr rfl⟩
  | negate => exact Or.inr ⟨rfl, Or.inr rfl⟩

namespace Session

variable {s : Session} {settings : Settings} {now : Int} {n : Nat} {t : Turn} {turns : List Turn}

/-- **A turn while the clock stands still**: a label is tapped, the stage works, beats or lets
real time pass, or links open or fail in another way from now on. -/
inductive Turn.Still : Turn → Prop
  | tap (label : Text) : Still (.tap label)
  | work : Still (.stage Stage.work)
  | beat : Still (.stage Stage.beat)
  | elapse (milliseconds : Nat) : Still (.stage (Stage.elapse milliseconds))
  | links (reach : Text → Bool) : Still (.links reach)

/-- The session after a number of turns. -/
def after : List Turn → Session → Session
  | [], s => s
  | t :: turns, s => after turns (s.turn t).2

/-- The keys that labels stand for. -/
def keys (labels : List Text) : List Key :=
  labels.filterMap fun label => (Key.ofLabel label).toOption

/-- The number of easter eggs that answers have found. -/
def eggs (answers : List (Except UnknownLabel Response)) : Nat :=
  answers.countP fun answer => (answer.map Response.easterEgg).toOption == some true

theorem labels_append (first rest : List Turn) :
    labels (first ++ rest) = labels first ++ labels rest := List.filterMap_append

theorem keys_append (first rest : List Text) :
    keys (first ++ rest) = keys first ++ keys rest := List.filterMap_append

theorem eggs_append (first rest : List (Except UnknownLabel Response)) :
    eggs (first ++ rest) = eggs first + eggs rest := List.countP_append

/-- **What the decorations of a session amount to** after a number of turns. -/
structure Tally (s : Session) (turns : List Turn) : Prop where
  /-- Every digit has released a burst, and no other key has. -/
  hearts : ∃ hs, ((s.after turns).hearts).1 = .ok hs ∧
    hs.length = s.settings.effects.burst.count.toNat * (keys (labels turns)).countP Key.isDigit
  /-- It is answered with the centre of its key, and no other key is answered with a point. -/
  origins : (s.answers turns).map (Except.map Response.burstOrigin) =
    (labels turns).map fun label => (Key.ofLabel label).map fun k =>
      if k.isDigit then Layout.origin? s.settings.screen k else none
  /-- A digit always has a centre, so that it is answered with a point. -/
  placed : ∀ d, (Layout.origin? s.settings.screen (.digit d)).isSome = true
  /-- The link has been visited for every easter egg, if the settings want it. -/
  visits : (s.after turns).visits.map Visit.url = s.visits.map Visit.url ++
    if s.settings.easterEgg.openLink then
      List.replicate (eggs (s.answers turns)) s.settings.easterEgg.url
    else []
  /-- The calculator has been pressed on the keys of the labels, and on nothing else. -/
  calculator : (s.after turns).calculator =
    (keys (labels turns)).foldl (fun c k => c.press k) s.calculator
  /-- A label that stands for no key is refused, and changes nothing at all. -/
  unknown : ∀ label e, Key.ofLabel label = .error e →
    (s.after turns).turn (.tap label) = (some (.error e), s.after turns)

/-! ### What a key press can do to the stage -/

/-- **Asking for a burst** either finds no key, or puts a letter into the mailbox of the stage
that has had its rest, or finds it closed. -/
theorem release_cases (k : Key) (s : Session) :
    (Layout.origin? s.settings.screen k = none ∧ s.release k = (none, s)) ∨
    (∃ origin ticket stage, Layout.origin? s.settings.screen k = some origin ∧
      s.rested.stage.send (.burst origin) = .ok (ticket, stage) ∧
      s.release k = (some origin, { s.rested with stage, stretch := s.rested.stretch + 1 })) ∨
    (s.rested.stage.isOpen = false ∧ s.release k = (none, s.rested)) := by
  unfold release
  cases place : Layout.origin? s.settings.screen k with
  | none => exact Or.inl ⟨rfl, rfl⟩
  | some origin =>
      refine Or.inr ?_
      dsimp only
      cases sent : s.rested.stage.send (.burst origin) with
      | ok r => exact Or.inl ⟨origin, r.1, r.2, rfl, sent, rfl⟩
      | error e =>
          refine Or.inr ⟨?_, rfl⟩
          unfold Stage.send at sent
          split at sent
          · cases sent
          · rename_i closed
            exact Bool.eq_false_iff.2 closed

/-- **What a key press does** besides what it does to the calculator: a digit asks for a burst,
any other key may celebrate. -/
theorem press_cases (k : Key) (s : Session) :
    ((s.press k).1.easterEgg = false ∧
      (s.press k).1.burstOrigin = (release k { s with calculator := s.calculator.press k }).1 ∧
      (s.press k).2 = (release k { s with calculator := s.calculator.press k }).2 ∧
      ∃ d, k = .digit d) ∨
    (k.isDigit = false ∧ (s.press k).1.burstOrigin = none ∧
      (s.press k).2 = if (s.press k).1.easterEgg then
        celebrate { s with calculator := s.calculator.press k }
        else { s with calculator := s.calculator.press k }) := by
  have egg : (s.press k).1.easterEgg = decide (s.calculator.signal k = some .easterEgg) := rfl
  have origin : (s.press k).1.burstOrigin = (decorate k (s.calculator.signal k)
      { s with calculator := s.calculator.press k }).1 := rfl
  have next : (s.press k).2 = (decorate k (s.calculator.signal k)
      { s with calculator := s.calculator.press k }).2 := rfl
  rcases s.calculator.signal_cases k with ⟨d, digit, signal⟩ | ⟨other, signal | signal⟩
  · rw [signal] at egg origin next
    exact Or.inl ⟨egg, origin, next, d, digit⟩
  · rw [signal] at egg origin next
    exact Or.inr ⟨other, origin, by rw [egg]; exact next⟩
  · rw [signal] at egg origin next
    exact Or.inr ⟨other, origin, by rw [egg]; exact next⟩

/-! ### What stays -/

/-- To rest changes the stage and the stretch only. -/
theorem frame_rested (s : Session) :
    s.rested = { s with stage := s.rested.stage, stretch := s.rested.stretch } := by
  unfold rested
  split <;> rfl

/-- So does asking for a burst. -/
theorem frame_release (k : Key) (s : Session) : (s.release k).2 =
    { s with stage := (s.release k).2.stage, stretch := (s.release k).2.stretch } := by
  rcases s.release_cases k with ⟨-, here⟩ | ⟨_, _, stage, -, -, sent⟩ | ⟨-, closed⟩
  · rw [here]
  · rw [sent]
    exact congrArg (fun r : Session => { r with stage, stretch := s.rested.stretch + 1 })
      s.frame_rested
  · rw [closed]
    exact s.frame_rested

theorem settings_release (k : Key) (s : Session) : (s.release k).2.settings = s.settings := by
  rw [frame_release]

theorem settings_celebrate (s : Session) : s.celebrate.settings = s.settings := by
  unfold celebrate
  split <;> rfl

theorem stage_celebrate (s : Session) : s.celebrate.stage = s.stage := by
  unfold celebrate
  split <;> rfl

theorem visits_celebrate (s : Session) : s.celebrate.visits.map Visit.url =
    s.visits.map Visit.url ++
      if s.settings.easterEgg.openLink then [s.settings.easterEgg.url] else [] := by
  unfold celebrate
  split
  · exact List.map_append
  · exact (List.append_nil _).symm

theorem settings_press (k : Key) (s : Session) : (s.press k).2.settings = s.settings := by
  rcases s.press_cases k with ⟨-, -, next, -⟩ | ⟨-, -, next⟩
  · rw [next]
    exact settings_release k _
  · rw [next]
    split
    · exact settings_celebrate _
    · rfl

theorem settings_turn (t : Turn) (s : Session) : (s.turn t).2.settings = s.settings := by
  cases t with
  | stage change => rfl
  | links reach => rfl
  | tap label =>
      rw [turn_tap]
      cases Key.ofLabel label with
      | error e => rfl
      | ok k => exact settings_press k s

/-! ### An open stage -/

theorem isOpen_of_rested (opened : s.rested.stage.isOpen = true) : s.stage.isOpen = true := by
  unfold rested at opened
  split at opened
  · exact opened
  · exact Stage.isOpen_of_drain opened

/-- **If the stage is open afterwards, it has taken the letter.** -/
theorem release_of_isOpen {k : Key} (opened : (s.release k).2.stage.isOpen = true) :
    s.stage.isOpen = true ∧ (s.release k).1 = Layout.origin? s.settings.screen k := by
  rcases s.release_cases k with ⟨place, here⟩ | ⟨_, _, _, place, sent, here⟩ | ⟨closed, here⟩
  · rw [here] at opened ⊢
    exact ⟨opened, place.symm⟩
  · rw [here, place]
    exact ⟨isOpen_of_rested (Stage.isOpen_of_send sent), rfl⟩
  · rw [here, closed] at opened
    cases opened

theorem press_of_isOpen {k : Key} (opened : (s.press k).2.stage.isOpen = true) :
    s.stage.isOpen = true ∧ (s.press k).1.burstOrigin =
      if k.isDigit then Layout.origin? s.settings.screen k else none := by
  rcases s.press_cases k with ⟨-, origin, next, d, rfl⟩ | ⟨other, origin, next⟩
  · rw [next] at opened
    obtain ⟨before, taken⟩ := release_of_isOpen opened
    exact ⟨before, origin.trans taken⟩
  · rw [next] at opened
    rw [other]
    refine ⟨?_, origin⟩
    split at opened
    · rw [stage_celebrate] at opened
      exact opened
    · exact opened

/-- A stage that is open after a turn was open before. -/
theorem isOpen_of_turn (still : t.Still) (opened : (s.turn t).2.stage.isOpen = true) :
    s.stage.isOpen = true := by
  cases still with
  | work => exact Stage.isOpen_of_work opened
  | beat => exact Stage.isOpen_of_beat opened
  | elapse milliseconds => exact Stage.isOpen_of_elapse opened
  | links reach => exact opened
  | tap label =>
      rw [turn_tap] at opened
      cases known : Key.ofLabel label with
      | error e =>
          rw [known] at opened
          exact opened
      | ok k =>
          rw [known] at opened
          exact (press_of_isOpen opened).1

theorem isOpen_of_after (still : ∀ t ∈ turns, t.Still)
    (opened : (s.after turns).stage.isOpen = true) : s.stage.isOpen = true := by
  induction turns generalizing s with
  | nil => exact opened
  | cons t turns ih =>
      obtain ⟨first, rest⟩ := List.forall_mem_cons.1 still
      exact isOpen_of_turn first (ih rest opened)

/-! ### Bursts -/

/-- The settings of a session, and what its stage accounts for. -/
structure Tallied (settings : Settings) (now : Int) (n : Nat) (s : Session) : Prop where
  under : s.settings = settings
  stage : s.stage.Accounts settings.effects now n

namespace Tallied

theorem rested (valid : settings.effects.Valid) (a : Tallied settings now n s) :
    Tallied settings now n s.rested := by
  refine ⟨by rw [s.frame_rested]; exact a.under, ?_⟩
  unfold Session.rested
  split
  · exact a.stage
  · exact a.stage.drain valid

/-- **A digit counts for a burst.** -/
theorem release (valid : settings.effects.Valid) (a : Tallied settings now n s) (d : Digit) :
    Tallied settings now (n + settings.effects.burst.count.toNat) (s.release (.digit d)).2 := by
  refine ⟨(settings_release _ s).trans a.under, ?_⟩
  rcases s.release_cases (.digit d) with ⟨place, -⟩ | ⟨_, _, _, -, sent, here⟩ | ⟨closed, here⟩
  · have found := Layout.isSome_origin?_digit s.settings.screen d
    rw [place] at found
    cases found
  · rw [here]
    exact (a.rested valid).stage.send sent
  · rw [here]
    exact (a.rested valid).stage.of_closed (Stage.isOpen_eq_false_iff.1 closed) _

theorem press (valid : settings.effects.Valid) (a : Tallied settings now n s) (k : Key) :
    Tallied settings now
      (n + settings.effects.burst.count.toNat * [k].countP Key.isDigit) (s.press k).2 := by
  have pressed : Tallied settings now n { s with calculator := s.calculator.press k } := { a with }
  rcases s.press_cases k with ⟨-, -, next, d, rfl⟩ | ⟨other, -, next⟩
  · have one : [Key.digit d].countP Key.isDigit = 1 := rfl
    rw [next, one, Nat.mul_one]
    exact pressed.release valid d
  · have none : [k].countP Key.isDigit = 0 := by simp [other]
    rw [none, Nat.mul_zero, Nat.add_zero]
    refine ⟨(settings_press k s).trans a.under, ?_⟩
    rw [next]
    split
    · rw [stage_celebrate]
      exact pressed.stage
    · exact pressed.stage

/-- **A turn** counts for the digit that it taps. -/
theorem turn (valid : settings.effects.Valid) (a : Tallied settings now n s) (still : t.Still) :
    Tallied settings now (n + settings.effects.burst.count.toNat *
      (keys (labels [t])).countP Key.isDigit) (s.turn t).2 := by
  cases still with
  | work => exact ⟨a.under, a.stage.work valid⟩
  | beat => exact ⟨a.under, a.stage.beat⟩
  | elapse milliseconds => exact ⟨a.under, a.stage.elapse milliseconds⟩
  | links reach => exact { a with }
  | tap label =>
      rw [turn_tap]
      cases known : Key.ofLabel label with
      | error e =>
          have none : keys (labels [.tap label]) = [] := by
            simp [labels, keys, Turn.label?, known, Except.toOption]
          rw [none]
          exact a
      | ok k =>
          have one : keys (labels [.tap label]) = [k] := by
            simp [labels, keys, Turn.label?, known, Except.toOption]
          rw [one]
          exact a.press valid k

/-- So do any number of them. -/
theorem after (valid : settings.effects.Valid) (a : Tallied settings now n s)
    (still : ∀ t ∈ turns, t.Still) : Tallied settings now (n + settings.effects.burst.count.toNat *
      (keys (labels turns)).countP Key.isDigit) (s.after turns) := by
  induction turns generalizing n s with
  | nil => exact a
  | cons t turns ih =>
      obtain ⟨first, rest⟩ := List.forall_mem_cons.1 still
      have split : keys (labels (t :: turns)) = keys (labels [t]) ++ keys (labels turns) := by
        rw [← keys_append, ← labels_append, List.singleton_append]
      rw [split, List.countP_append, Nat.mul_add, ← Nat.add_assoc]
      exact ih (a.turn valid first) rest

/-- The hearts that are shown in the end. -/
theorem hearts (valid : settings.effects.Valid) (a : Tallied settings now n s)
    (opened : s.stage.drain.isOpen = true) :
    ∃ hs, s.hearts.1 = .ok hs ∧ hs.length = n := by
  obtain ⟨hs, reply, count⟩ := a.stage.hearts valid opened
  refine ⟨hs, ?_, count⟩
  rw [Session.hearts]
  dsimp only
  rw [reply]

end Tallied

/-! ### Answers, visits and keys -/

/-- The answers to the points of digits, while the stage is open. -/
theorem origins_of_isOpen (still : ∀ t ∈ turns, t.Still)
    (opened : (s.after turns).stage.isOpen = true) :
    (s.answers turns).map (Except.map Response.burstOrigin) =
      (labels turns).map fun label => (Key.ofLabel label).map fun k =>
        if k.isDigit then Layout.origin? s.settings.screen k else none := by
  induction turns generalizing s with
  | nil => rfl
  | cons t turns ih =>
      obtain ⟨first, rest⟩ := List.forall_mem_cons.1 still
      have more := ih rest opened
      rw [settings_turn] at more
      rw [answers, List.map_append, more]
      cases t with
      | stage change => rfl
      | links reach => rfl
      | tap label =>
          show _ = (label :: labels turns).map _
          rw [turn_tap, List.map_cons]
          cases known : Key.ofLabel label with
          | error e => rfl
          | ok k =>
              have now := isOpen_of_after rest opened
              rw [turn_tap, known] at now
              show Except.ok (s.press k).1.burstOrigin :: _ = _
              rw [(press_of_isOpen now).2]
              rfl

/-- A turn visits the link if it finds the easter egg. -/
theorem visits_turn (t : Turn) (s : Session) : (s.turn t).2.visits.map Visit.url =
    s.visits.map Visit.url ++ if s.settings.easterEgg.openLink then
      List.replicate (eggs (s.turn t).1.toList) s.settings.easterEgg.url else [] := by
  have nothing : s.visits.map Visit.url = s.visits.map Visit.url ++
      if s.settings.easterEgg.openLink then
        List.replicate 0 s.settings.easterEgg.url else [] := by
    rw [List.replicate_zero, ite_self, List.append_nil]
  cases t with
  | stage change => exact nothing
  | links reach => exact nothing
  | tap label =>
      rw [turn_tap]
      cases Key.ofLabel label with
      | error e => exact nothing
      | ok k =>
          have count : eggs [.ok (s.press k).1] = if (s.press k).1.easterEgg then 1 else 0 := by
            cases egg : (s.press k).1.easterEgg <;>
              simp [eggs, Except.map, Except.toOption, egg]
          show (s.press k).2.visits.map Visit.url = _ ++
            if _ then List.replicate (eggs [.ok (s.press k).1]) _ else []
          rw [count]
          rcases s.press_cases k with ⟨egg, -, next, -⟩ | ⟨-, -, next⟩
          · rw [next, frame_release, egg]
            exact nothing
          · rw [next]
            split
            · exact visits_celebrate _
            · exact nothing

theorem visits_after (turns : List Turn) (s : Session) : (s.after turns).visits.map Visit.url =
    s.visits.map Visit.url ++ if s.settings.easterEgg.openLink then
      List.replicate (eggs (s.answers turns)) s.settings.easterEgg.url else [] := by
  induction turns generalizing s with
  | nil => simp [after, answers, eggs]
  | cons t turns ih =>
      rw [after, ih, settings_turn, visits_turn, answers, eggs_append, List.append_assoc]
      split
      · rw [List.replicate_add]
      · rfl

/-- The calculator is pressed on the keys that were tapped. -/
theorem calculator_after (turns : List Turn) (s : Session) : (s.after turns).calculator =
    (keys (labels turns)).foldl (fun c k => c.press k) s.calculator := by
  induction turns generalizing s with
  | nil => rfl
  | cons t turns ih =>
      rw [after, ih]
      cases t with
      | stage change => rfl
      | links reach => rfl
      | tap label =>
          show _ = (keys (label :: labels turns)).foldl _ _
          rw [turn_tap]
          cases known : Key.ofLabel label with
          | error e => simp [keys, known, Except.toOption]
          | ok k => simp [keys, known, Except.toOption, calculator_press]

/-! ### The tally -/

/-- **The decorations of a session can be counted** from what was tapped: under settings that
break no rule, after any turns while the clock stands still, if the stage has stayed open. -/
theorem tally_of_turns {settings : Settings} (valid : settings.fault? = none)
    {source : WordSource} {clock : Clock} {reach : Text → Bool} {turns : List Turn}
    (still : ∀ t ∈ turns, t.Still)
    (opened : ((start settings source clock reach).after turns).stage.drain.isOpen = true) :
    Tally (start settings source clock reach) turns := by
  have effects : settings.effects.Valid := Settings.valid_of_fault?_eq_none valid
  have atStart : Tallied settings clock.now 0 (start settings source clock reach) :=
    ⟨rfl, Stage.Accounts.start settings.effects source clock⟩
  have atEnd := atStart.after effects still
  rw [Nat.zero_add] at atEnd
  exact {
    hearts := atEnd.hearts effects opened
    origins := origins_of_isOpen still (Stage.isOpen_of_drain opened)
    placed := Layout.isSome_origin?_digit _
    visits := visits_after turns _
    calculator := calculator_after turns _
    unknown := fun label e unknown => by rw [turn_tap, unknown] }

/-- Two sevens and `=`, with a label that is none and a stage that goes on in between. -/
def sevensOnStage : List Turn :=
  [.tap ['7'], .stage Stage.work, .tap ['?'], .tap ['7'], .stage (Stage.elapse 16), .tap ['=']]

theorem still_sevensOnStage : ∀ t ∈ sevensOnStage, t.Still := by
  simp only [sevensOnStage, List.forall_mem_cons, List.not_mem_nil, false_implies, implies_true,
    and_true]
  exact ⟨.tap _, .work, .tap _, .tap _, .elapse 16, .tap _⟩

/-- Two bursts of two hearts, and one visit. -/
theorem tally_of_sevens :
    let settings : Settings := {
      easterEgg := { url := ['u'], result := ['7', '7'] }
      effects := { burst := { count := 2 } } }
    let s := start settings ⟨[], 1⟩ ⟨0⟩ fun _ => true
    settings.fault? = none ∧ Tally s sevensOnStage ∧
      (∃ hs, ((s.after sevensOnStage).hearts).1 = .ok hs ∧ hs.length = 4) ∧
      (s.after sevensOnStage).visits.map Visit.url = [['u']] := by
  intro settings s
  have valid : settings.fault? = none := by decide
  have opened : (s.after sevensOnStage).stage.drain.isOpen = true := by decide
  have tally : Tally s sevensOnStage := tally_of_turns valid still_sevensOnStage opened
  exact ⟨valid, tally, tally.hearts, by decide⟩

end Session

end HeartKeypad
