import HeartKeypad.Proofs.Show.Lives
import HeartKeypad.Proofs.Stage.Script
import Mathlib.Data.List.Infix

/-!
# What becomes of the letters that were taken

A client whose letter the mailbox has taken is told so, long before the letter is handled.  As
long as no letter closes the stage, all that were taken are handled, each once and in order;
those behind a letter that closes it never are.

* `House.works` — how often a play lets the stage work.
* `House.Kept.handled` — if it works as often as letters wait, those in time are handled.
* `House.carried_out_once` — what was acknowledged is carried out once, if it came in time.
* `House.acknowledged_may_be_lost` — and otherwise it may be lost.

### What carries the proofs

One list holds all that was taken.  The letters that have been handled are always in front of
it, and stop at the letter that closes the stage (`House.Kept.timely`).  Work takes one
letter off the mailbox as long as the stage stays open, and nothing else does
(`House.waiting_handled`).
-/

namespace HeartKeypad

namespace Stage

variable {st : Stage} {s : Show} {l : Letter} {ls : List Letter}

/-- A stage that is still open behind a change of its show has kept its mailbox. -/
theorem mailbox_settle {result : Except Fault Show} (opened : (st.settle result).isOpen = true) :
    (st.settle result).mailbox = st.mailbox := by
  cases result with
  | ok s => rfl
  | error fault => cases opened

theorem mailbox_beat (opened : st.beat.isOpen = true) : st.beat.mailbox = st.mailbox := by
  cases hs : st.show? with
  | none => rw [beat_closed hs]
  | some s =>
      rw [beat, hs] at opened ⊢
      exact mailbox_settle opened

/-- A stage that is still open behind some work has handled the letter in front. -/
theorem mailbox_work (hs : st.show? = some s) (hm : st.mailbox = l :: ls)
    (opened : st.work.isOpen = true) : st.work.mailbox = ls ∧ l.command ≠ .shutdown := by
  rw [work, hs, hm] at opened ⊢
  dsimp only at opened ⊢
  rw [handle] at opened ⊢
  cases command : l.command with
  | burst origin =>
      rw [command] at opened
      exact ⟨mailbox_settle opened, Command.noConfusion⟩
  | tick =>
      rw [command] at opened
      exact ⟨mailbox_settle opened, Command.noConfusion⟩
  | cancel id => exact ⟨rfl, Command.noConfusion⟩
  | snapshot => exact ⟨rfl, Command.noConfusion⟩
  | shutdown =>
      rw [command] at opened
      cases opened

end Stage

namespace House

open Cue (letters actions)

variable {h : House} {m : Move} {moves more : List Move}

/-! ### Plays in two parts -/

theorem play_append (h : House) (moves more : List Move) :
    h.play (moves ++ more) = (h.play moves).play more := by
  induction moves generalizing h with
  | nil => rfl
  | cons m ms ih => exact ih (h.move m)

theorem script_append (h : House) (moves more : List Move) :
    h.script (moves ++ more) = h.script moves ++ (h.play moves).script more := by
  induction moves generalizing h with
  | nil => rfl
  | cons m ms ih =>
      rw [List.cons_append, script, script, ih, List.append_assoc]
      rfl

/-- No call is forgotten. -/
theorem calls_prefix_move (h : House) (m : Move) : h.calls <+: (h.move m).calls := by
  cases m with
  | call client command =>
      rw [move]
      split
      · cases opened : h.stage.isOpen with
        | false =>
            rw [call_of_closed opened]
            exact List.prefix_append _ _
        | true =>
            rw [call_of_open opened]
            exact List.prefix_append _ _
      · exact List.prefix_rfl
  | share client other =>
      rw [move]
      split <;> exact List.prefix_rfl
  | work =>
      show h.calls <+: h.work.calls
      rw [work]
      split <;> exact List.prefix_rfl
  | leave | beat | setClock => exact List.prefix_rfl

theorem calls_prefix (h : House) (moves : List Move) : h.calls <+: (h.play moves).calls := by
  induction moves generalizing h with
  | nil => exact List.prefix_rfl
  | cons m ms ih => exact (h.calls_prefix_move m).trans (ih (h.move m))

theorem taken_prefix (h : House) (moves : List Move) : h.taken <+: (h.play moves).taken :=
  (h.calls_prefix moves).filterMap _

theorem inTime_prefix (h : House) (moves : List Move) : h.inTime <+: (h.play moves).inTime := by
  obtain ⟨after, split⟩ := h.taken_prefix moves
  rw [inTime, inTime, ← split, List.takeWhile_append]
  split
  · exact (List.takeWhile_prefix _).trans (List.prefix_append _ _)
  · exact List.prefix_rfl

/-- A closed stage stays closed. -/
theorem show_move_of_closed (closed : h.stage.show? = none) (m : Move) :
    (h.move m).stage.show? = none := by
  cases m with
  | call client command =>
      rw [move]
      split
      · rw [call_of_closed (Stage.isOpen_eq_false_iff.2 closed)]
        exact closed
      · exact closed
  | share client other =>
      rw [move]
      split <;> exact closed
  | leave => exact closed
  | setClock => exact closed
  | beat =>
      show h.stage.beat.show? = none
      rw [Stage.beat_closed closed]
      exact closed
  | work =>
      show h.work.stage.show? = none
      rw [work]
      split
      · rfl
      · rw [Stage.work_closed closed]
        exact closed

theorem show_play_of_closed (closed : h.stage.show? = none) (moves : List Move) :
    (h.play moves).stage.show? = none := by
  induction moves generalizing h with
  | nil => exact closed
  | cons m ms ih => exact ih (show_move_of_closed closed m)

/-- A stage that is open in the end has been open all along. -/
theorem show_of_open (opened : (h.play moves).stage.isOpen = true) :
    ∃ s, h.stage.show? = some s := by
  cases hs : h.stage.show? with
  | some s => exact ⟨s, rfl⟩
  | none =>
      exact nomatch opened.symm.trans
        (Stage.isOpen_eq_false_iff.2 (show_play_of_closed hs moves))

/-! ### Work -/

/-- The stage works. -/
def Move.isWork : Move → Bool
  | .work => true
  | _ => false

/-- How often the stage works. -/
def works (moves : List Move) : Nat := moves.countP Move.isWork

/-- Nothing but work takes a letter off the mailbox of a stage that stays open. -/
theorem mailbox_move (rests : m.isWork = false) (opened : (h.move m).stage.isOpen = true) :
    h.stage.mailbox <+: (h.move m).stage.mailbox := by
  cases m with
  | call client command =>
      rw [move]
      split
      · cases was : h.stage.isOpen with
        | false => rw [call_of_closed was]
        | true =>
            rw [call_of_open was]
            exact List.prefix_append _ _
      · exact List.prefix_rfl
  | share client other =>
      rw [move]
      split <;> exact List.prefix_rfl
  | leave | setClock => exact List.prefix_rfl
  | beat =>
      have same : (h.move .beat).stage.mailbox = h.stage.mailbox := Stage.mailbox_beat opened
      rw [same]
  | work => cases rests

/-- Nothing but work handles a letter. -/
theorem letters_cue (rests : m.isWork = false) : letters (h.cue? m).toList = [] := by
  cases m with
  | work => cases rests
  | call | share | leave | setClock => rfl
  | beat =>
      rw [cue?]
      cases h.stage.show? <;> rfl

theorem move_work {l : Letter} {ls : List Letter} (hm : h.stage.mailbox = l :: ls) :
    h.move .work = { h with stage := h.stage.work } := by
  show h.work = _
  rw [work, hm, if_neg fun both => List.cons_ne_nil l ls both.2]

/-- **Letters that wait are handled**, if the stage stays open and works as often as there are
letters. -/
theorem waiting_handled {waits : List Letter} (waiting : waits <+: h.stage.mailbox)
    (enough : waits.length ≤ works moves) (opened : (h.play moves).stage.isOpen = true) :
    waits <+: letters (h.script moves) := by
  induction moves generalizing h waits with
  | nil =>
      obtain rfl := List.eq_nil_of_length_eq_zero (Nat.le_zero.1 enough)
      exact List.nil_prefix
  | cons m ms ih =>
      obtain ⟨next, hnext⟩ := show_of_open (h := h.move m) opened
      have stays := Stage.isOpen_of_show hnext
      rw [script, Cue.letters_append]
      cases rests : m.isWork with
      | false =>
          have same : works (m :: ms) = works ms := List.countP_cons_of_neg (by simp [rests])
          rw [letters_cue rests, List.nil_append]
          exact ih (waiting.trans (mailbox_move rests stays)) (same ▸ enough) opened
      | true =>
          have same : works (m :: ms) = works ms + 1 := List.countP_cons_of_pos rests
          obtain rfl : m = .work := by
            cases m <;> first | rfl | cases rests
          cases waits with
          | nil => exact List.nil_prefix
          | cons l waits =>
              obtain ⟨rest, hm⟩ := waiting
              obtain ⟨s, hs⟩ := @show_of_open h (.work :: ms) opened
              rw [List.cons_append] at hm
              rw [move_work hm.symm] at stays
              obtain ⟨taken, goes⟩ := Stage.mailbox_work hs hm.symm stays
              rw [cue_work_letter hs hm.symm goes]
              refine List.cons_prefix_cons.2 ⟨rfl, ih ?_ ?_ opened⟩
              · rw [move_work hm.symm]
                exact ⟨rest, taken.symm⟩
              · rw [same, List.length_cons] at enough
                exact Nat.le_of_succ_le_succ enough

namespace Kept

variable {start : Show} {cues : List Cue}

/-- All that was taken is handled, once the stage has worked as often as letters were waiting,
if it is still open. -/
theorem taken_handled (k : Kept start cues h) (enough : h.stage.mailbox.length ≤ works more)
    (opened : (h.play more).stage.isOpen = true) :
    h.taken <+: letters (cues ++ h.script more) := by
  obtain ⟨s, hs⟩ := show_of_open opened
  rw [Cue.letters_append, ← k.waiting (Stage.isOpen_of_show hs)]
  exact (List.prefix_append_right_inj _).2 (waiting_handled List.prefix_rfl enough opened)

/-- **All that came in time is handled** in any case, or else the history is at fault. -/
theorem handled (k : Kept start cues h) (enough : h.stage.mailbox.length ≤ works more) :
    h.inTime <+: letters (cues ++ h.script more) ∨
      ∃ fault, start.run (actions (cues ++ h.script more)) = .error fault := by
  cases opened : (h.play more).stage.isOpen with
  | false =>
      rcases (k.play more).closed opened with all | fault
      · rw [all]
        exact Or.inl (h.inTime_prefix more)
      · exact Or.inr fault
  | true => exact Or.inl ((List.takeWhile_prefix _).trans (k.taken_handled enough opened))

/-- What is handled later was taken in time. -/
theorem mem_inTime_of_handled {l : Letter} (k : Kept start cues h)
    (handled : l ∈ letters (cues ++ h.script more)) (taken : l ∈ h.taken) : l ∈ h.inTime := by
  obtain ⟨after, split⟩ := h.taken_prefix more
  have timely := (k.play more).timely.subset handled
  rw [inTime, ← split, List.takeWhile_append] at timely
  split at timely
  · -- nothing that was taken closes the stage
    rename_i all
    rw [inTime, (List.takeWhile_prefix _).eq_of_length all]
    exact taken
  · exact timely

theorem mem_letters_iff {l : Letter} (k : Kept start cues h)
    (enough : h.stage.mailbox.length ≤ works more)
    (sane : ¬ ∃ fault, start.run (actions (cues ++ h.script more)) = .error fault)
    (taken : l ∈ h.taken) : l ∈ letters (cues ++ h.script more) ↔ l ∈ h.inTime :=
  ⟨fun handled => k.mem_inTime_of_handled handled taken,
    fun timely => ((k.handled enough).resolve_right sane).subset timely⟩

/-- A letter is handled once at most. -/
theorem nodup_letters (k : Kept start cues h) : (letters cues).Nodup :=
  (k.timely.trans (List.takeWhile_prefix _)).sublist.nodup (List.Nodup.of_map _ k.nodup)

end Kept

/-! ### Acknowledged letters -/

/-- A call with a ticket has put a letter into the mailbox. -/
theorem mem_taken {c : Call} {ticket : Nat} (hc : c ∈ h.calls) (given : c.ticket? = some ticket) :
    ⟨ticket, c.command⟩ ∈ h.taken :=
  List.mem_filterMap.2 ⟨c, hc, by rw [Call.letter?, given]; rfl⟩

/-- What has been acknowledged has a ticket, and asks for nothing. -/
theorem ticket_of_acknowledged {c : Call} (acknowledged : h.result? c = some (.ok none)) :
    ∃ ticket, c.ticket? = some ticket ∧ c.command.asks = false := by
  unfold result? at acknowledged
  split at acknowledged
  · cases acknowledged
  · rename_i ticket given
    split at acknowledged
    · split at acknowledged
      · cases acknowledged
      · split at acknowledged <;> cases acknowledged
    · rename_i asks
      exact ⟨ticket, given, Bool.eq_false_iff.2 asks⟩

/-- **What becomes of acknowledged letters**: those of a house, by the script of a play that
leads to another. -/
structure Delivered (start : Show) (cues : List Cue) (h h' : House) : Prop where
  /-- A letter that came in time is handled once, and any other never. -/
  once : ∀ c ∈ h.calls, h.result? c = some (.ok none) → ∃ ticket, c.ticket? = some ticket ∧
    (letters cues).count ⟨ticket, c.command⟩ =
      if ⟨ticket, c.command⟩ ∈ h.inTime then 1 else 0
  /-- Letters are handled in the order in which they were taken. -/
  inOrder : letters cues <+: h'.inTime
  /-- They are taken in the order of the calls. -/
  tickets : h'.taken.map (·.ticket) = List.range h'.taken.length
  /-- A stage that has closed has handled all that came in time. -/
  closed : h'.stage.isOpen = false → letters cues = h'.inTime
  /-- The show is the one that a plain show is led to, by the letters handled and the beats. -/
  shows : ∀ s, h'.stage.show? = some s → ∃ events, start.run (actions cues) = .ok (events, s)

/-- **What was acknowledged is carried out once**, unless a letter in front of it closed the
stage: in every play in which no show is at fault, once the stage has worked as often as letters
were waiting. -/
theorem carried_out_once {effects : Effects} {source : WordSource} {clock : Clock}
    {moves more : List Move}
    (sound : ∃ r, (Show.new effects source).run
      (actions ((start effects source clock).script (moves ++ more))) = .ok r)
    (enough : ((start effects source clock).play moves).stage.mailbox.length ≤ works more) :
    Delivered (Show.new effects source) ((start effects source clock).script (moves ++ more))
      ((start effects source clock).play moves)
      ((start effects source clock).play (moves ++ more)) := by
  have k := kept_play effects source clock moves
  have k' := kept_play effects source clock (moves ++ more)
  obtain ⟨r, run⟩ := sound
  have sane : ¬ ∃ fault, (Show.new effects source).run
      (actions ((start effects source clock).script (moves ++ more))) = .error fault :=
    fun ⟨_, fault⟩ => nomatch run.symm.trans fault
  refine ⟨fun c hc acknowledged => ?_, k'.timely, ?_,
    fun closed => (k'.closed closed).resolve_right sane, k'.shows⟩
  · obtain ⟨ticket, given, -⟩ := ticket_of_acknowledged acknowledged
    refine ⟨ticket, given, ?_⟩
    rw [k'.nodup_letters.count]
    rw [script_append] at sane ⊢
    simp only [k.mem_letters_iff enough sane (mem_taken hc given)]
  · have length := congrArg List.length k'.tickets
    rw [List.length_map, List.length_range] at length
    rw [length, k'.tickets]

/-- A burst in front of the letter that closes the stage is carried out, and a tick behind it is
not. -/
theorem carried_out_before_closing :
    (letters ((start Show.single ⟨[0], 0⟩ {}).script [.call 0 (.burst ⟨3.0, 4.0⟩),
      .call 0 .shutdown, .call 0 .tick, .work, .work, .work])).count
        ⟨0, .burst ⟨3.0, 4.0⟩⟩ = 1 ∧
    (letters ((start Show.single ⟨[0], 0⟩ {}).script [.call 0 (.burst ⟨3.0, 4.0⟩),
      .call 0 .shutdown, .call 0 .tick, .work, .work, .work])).count ⟨2, .tick⟩ = 0 := by
  have delivered := @carried_out_once Show.single ⟨[0], 0⟩ {} [.call 0 (.burst ⟨3.0, 4.0⟩),
    .call 0 .shutdown, .call 0 .tick] [.work, .work, .work] ⟨_, rfl⟩ (by decide)
  constructor
  · obtain ⟨ticket, given, once⟩ := delivered.once ⟨0, .burst ⟨3.0, 4.0⟩, some 0⟩
      List.mem_cons_self rfl
    cases given
    exact once
  · obtain ⟨ticket, given, once⟩ := delivered.once ⟨0, .tick, some 2⟩
      (List.mem_cons_of_mem _ (List.mem_cons_of_mem _ List.mem_cons_self)) rfl
    cases given
    exact once

/-- **A burst that was acknowledged may be lost**: the letter in front of it closes the stage. -/
theorem acknowledged_may_be_lost :
    ¬ ∀ effects source clock moves more,
      (∃ r, (Show.new effects source).run
        (actions ((start effects source clock).script (moves ++ more))) = .ok r) →
      ((start effects source clock).play moves).stage.mailbox.length ≤ works more →
      ∀ c ∈ ((start effects source clock).play moves).calls,
        (c.command = .tick ∨ ∃ origin, c.command = .burst origin) →
        ((start effects source clock).play moves).result? c = some (.ok none) →
        ∃ ticket, c.ticket? = some ticket ∧
          (letters ((start effects source clock).script (moves ++ more))).count
            ⟨ticket, c.command⟩ = 1 := by
  intro always
  obtain ⟨ticket, -, once⟩ := always Show.single ⟨[0], 0⟩ {}
    [.call 0 .shutdown, .call 0 (.burst ⟨3.0, 4.0⟩)] [.work, .work] ⟨_, rfl⟩ (by decide)
    ⟨0, .burst ⟨3.0, 4.0⟩, some 1⟩ (List.mem_cons_of_mem _ List.mem_cons_self)
    (Or.inr ⟨_, rfl⟩) rfl
  cases once

end House

end HeartKeypad
