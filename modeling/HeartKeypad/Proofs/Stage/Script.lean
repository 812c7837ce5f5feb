import HeartKeypad.Proofs.Show.Batching
import HeartKeypad.Proofs.Stage.House
import Mathlib.Data.List.TakeWhile

/-!
# What a house keeps of its script

The letters that a stage has handled, those that wait, its show and the replies it has given
are all read off the script: `House.Kept` says how, and `House.Kept.play` that every play keeps
it so.

### How the stage is compared with a plain show

There is no second show to be compared with.  The invariant is about one history, the actions
of the script: the show of the stage is the one that this history leads to
(`House.Kept.shows`), and the reply to a letter is what the history in front of that letter
leads to (`House.Kept.replied`).  A stage closes on a letter that asks for it or when it is left
alone, and in both cases it has handled what came in time; or else the history is at fault, with
its last action (`House.Kept.closed`).
-/

namespace HeartKeypad

/-! ### One step of a stage -/

/-- A history is at fault if the rest of it is. -/
theorem Show.run_append_error {s s' : Show} {events : List Show.Event} {as bs : List Show.Action}
    {fault : Fault} (first : s.run as = .ok (events, s')) (rest : s'.run bs = .error fault) :
    ∃ fault, s.run (as ++ bs) = .error fault := by
  cases hrun : s.run (as ++ bs) with
  | error fault => exact ⟨fault, rfl⟩
  | ok r =>
      obtain ⟨_, _, _, again, more, -⟩ := Show.run_append.1 hrun
      cases first.symm.trans again
      exact nomatch more.symm.trans rest

/-- What is replied to is not at fault. -/
theorem Command.reply_eq_none_of_fault {s : Show} {command : Command} {now : Int} {fault : Fault}
    (h : s.run (command.action? now).toList = .error fault) : command.reply? s = none := by
  cases command with
  | burst | tick | shutdown => rfl
  | cancel | snapshot => cases h

namespace Stage

variable {st : Stage} {s s' : Show} {l : Letter} {ls : List Letter} {events : List Show.Event}
  {fault : Fault}

theorem isOpen_of_show (hs : st.show? = some s) : st.isOpen = true := by
  rw [isOpen, hs]
  rfl

theorem isOpen_eq_false_iff : st.isOpen = false ↔ st.show? = none :=
  Option.isSome_eq_false_iff.trans Option.isNone_iff_eq_none

/-- **Handling a letter** is what a plain show does with the command, and its reply. -/
theorem work_letter (hs : st.show? = some s) (hm : st.mailbox = l :: ls)
    (stays : l.command ≠ .shutdown)
    (h : s.run (l.command.action? st.clock.now).toList = .ok (events, s')) :
    st.work = { st with
      show? := some s'
      mailbox := ls
      replies := st.replies ++ ((Cue.letter l st.clock.now).reply? s).toList } := by
  rw [work, hs, hm]
  dsimp only [Cue.reply?]
  rw [handle]
  cases command : l.command with
  | burst origin =>
      rw [command] at h
      have burst := (Show.act_burst.1 ((Show.run_singleton _ s).symm.trans h)).1
      dsimp only
      rw [burst]
      simp [settle, Command.reply?]
  | tick =>
      rw [command] at h
      have advance : s.advance st.clock.now = .ok (events, s') :=
        (Show.run_singleton _ s).symm.trans h
      dsimp only
      rw [advanced, advance]
      simp [settle, Command.reply?, Except.map]
  | cancel id =>
      rw [command] at h
      cases (Show.run_singleton _ s).symm.trans h
      rfl
  | snapshot =>
      rw [command] at h
      cases h
      rfl
  | shutdown => exact absurd command stays

/-- A letter at which a plain show is at fault closes the stage. -/
theorem work_fault (hs : st.show? = some s) (hm : st.mailbox = l :: ls)
    (h : s.run (l.command.action? st.clock.now).toList = .error fault) : st.work = st.close := by
  rw [work, hs, hm]
  dsimp only
  rw [handle]
  cases command : l.command with
  | burst origin =>
      rw [command] at h
      dsimp only
      cases hburst : s.burst origin st.clock.now with
      | error fault => rfl
      | ok s' =>
          have act := (Show.run_singleton _ s).trans (Show.act_burst.2 ⟨hburst, rfl⟩)
          cases act.symm.trans h
  | tick =>
      rw [command] at h
      have advance : s.advance st.clock.now = .error fault :=
        (Show.run_singleton _ s).symm.trans h
      dsimp only
      rw [advanced, advance]
      rfl
  | cancel | snapshot | shutdown =>
      rw [command] at h
      cases h

/-- The letter that closes a stage. -/
theorem work_shutdown (hs : st.show? = some s) (hm : st.mailbox = l :: ls)
    (ends : l.command = .shutdown) : st.work = st.close := by
  rw [work, hs, hm]
  dsimp only
  rw [handle, ends]
  rfl

/-- **A beat** is an advance. -/
theorem beat_advance (hs : st.show? = some s)
    (h : s.run [.advance st.clock.now] = .ok (events, s')) :
    st.beat = { st with show? := some s' } := by
  have advance : s.advance st.clock.now = .ok (events, s') :=
    (Show.run_singleton _ s).symm.trans h
  rw [beat, hs]
  dsimp only
  rw [advanced, advance]
  rfl

/-- A beat at which a plain show is at fault closes the stage. -/
theorem beat_fault (hs : st.show? = some s)
    (h : s.run [.advance st.clock.now] = .error fault) : st.beat = st.close := by
  have advance : s.advance st.clock.now = .error fault := (Show.run_singleton _ s).symm.trans h
  rw [beat, hs]
  dsimp only
  rw [advanced, advance]
  rfl

theorem work_closed (h : st.show? = none) : st.work = st := by
  rw [work, h]

theorem work_idle (h : st.mailbox = []) : st.work = st := by
  rw [work, h]
  cases st.show? <;> rfl

theorem beat_closed (h : st.show? = none) : st.beat = st := by
  rw [beat, h]

/-- A new reply is found under the ticket of the letter that is handled. -/
theorem lookup_reply {replies : List (Nat × Reply)} (fresh : replies.lookup l.ticket = none)
    (now : Int) : (replies ++ ((Cue.letter l now).reply? s).toList).lookup l.ticket =
      l.command.reply? s := by
  rw [List.lookup_append, fresh, Option.none_or, Cue.reply?]
  cases l.command.reply? s with
  | none => rfl
  | some r => exact List.lookup_cons_self

/-- Under any other ticket nothing changes. -/
theorem lookup_other {replies : List (Nat × Reply)} {c : Cue} {ticket : Nat}
    (other : ∀ l ∈ Cue.letters [c], l.ticket ≠ ticket) :
    (replies ++ (c.reply? s).toList).lookup ticket = replies.lookup ticket := by
  have none : (c.reply? s).toList.lookup ticket = none := by
    cases c with
    | beat now => rfl
    | letter l now =>
        rw [Cue.reply?]
        cases l.command.reply? s with
        | none => rfl
        | some r =>
            have differs : ticket ≠ l.ticket := (other l List.mem_cons_self).symm
            rw [Option.map_some, Option.toList_some, List.lookup_cons,
              beq_eq_false_iff_ne.2 differs]
            rfl
  rw [List.lookup_append, none, Option.or_none]

end Stage

namespace House

open Cue (letters actions)

/-! ### What a house keeps -/

/-- **What a house has kept of its script**, for the show that it started with. -/
structure Kept (start : Show) (cues : List Cue) (h : House) : Prop where
  /-- Tickets are given in the order of the calls. -/
  tickets : h.taken.map (·.ticket) = List.range h.stage.nextTicket
  /-- An open stage has handled the letters in order, and the others wait. -/
  waiting : h.stage.isOpen = true → letters cues ++ h.stage.mailbox = h.taken
  /-- No letter waits at a closed one. -/
  cleared : h.stage.isOpen = false → h.stage.mailbox = []
  /-- It has handled the letters that came in time, or else the history is at fault. -/
  closed : h.stage.isOpen = false →
    letters cues = h.inTime ∨ ∃ fault, start.run (actions cues) = .error fault
  /-- The letters that were handled came in time, and in this order. -/
  timely : letters cues <+: h.inTime
  /-- The show is the one that the history leads to. -/
  shows : ∀ s, h.stage.show? = some s → ∃ events, start.run (actions cues) = .ok (events, s)
  /-- The reply to a letter is that of a plain show behind the history in front of it. -/
  replied : ∀ before l now after, cues = before ++ .letter l now :: after →
    ∃ events s, start.run (actions before) = .ok (events, s) ∧
      h.stage.replies.lookup l.ticket = l.command.reply? s
  /-- No other letter has a reply. -/
  unreplied : ∀ ticket, (∀ l ∈ letters cues, l.ticket ≠ ticket) →
    h.stage.replies.lookup ticket = none

variable {h : House} {s : Show} {l : Letter} {ls : List Letter}

theorem cue_work_letter (hs : h.stage.show? = some s) (hm : h.stage.mailbox = l :: ls)
    (stays : l.command ≠ .shutdown) : h.cue? .work = some (.letter l h.stage.clock.now) := by
  unfold cue?
  rw [hs, hm]
  exact if_neg stays

theorem cue_work_shutdown (hs : h.stage.show? = some s) (hm : h.stage.mailbox = l :: ls)
    (ends : l.command = .shutdown) : h.cue? .work = none := by
  unfold cue?
  rw [hs, hm]
  exact if_pos ends

theorem cue_work_idle (hm : h.stage.mailbox = []) : h.cue? .work = none := by
  unfold cue?
  rw [hm]
  cases h.stage.show? <;> rfl

theorem cue_work_closed (hs : h.stage.show? = none) : h.cue? .work = none := by
  unfold cue?
  rw [hs]

theorem cue_beat (hs : h.stage.show? = some s) :
    h.cue? .beat = some (.beat h.stage.clock.now) := by
  rw [cue?, hs, Option.map_some]

theorem cue_beat_closed (hs : h.stage.show? = none) : h.cue? .beat = none := by
  rw [cue?, hs, Option.map_none]

theorem call_of_open {h : House} (opened : h.stage.isOpen = true) (client : Nat)
    (command : Command) : h.call client command =
      ⟨{ h.stage with
        mailbox := h.stage.mailbox ++ [⟨h.stage.nextTicket, command⟩]
        nextTicket := h.stage.nextTicket + 1 }, h.clients,
        h.calls ++ [⟨client, command, some h.stage.nextTicket⟩]⟩ := by
  rw [call, Stage.send, opened]
  rfl

theorem call_of_closed {h : House} (closed : h.stage.isOpen = false) (client : Nat)
    (command : Command) : h.call client command =
      { h with calls := h.calls ++ [⟨client, command, none⟩] } := by
  rw [call, Stage.send, closed]
  rfl

/-- A letter is taken by an open stage only. -/
theorem taken_call_of_open (opened : h.stage.isOpen = true) (client : Nat) (command : Command) :
    (h.call client command).taken = h.taken ++ [⟨h.stage.nextTicket, command⟩] := by
  rw [call_of_open opened, taken, List.filterMap_append]
  rfl

theorem taken_call_of_closed (closed : h.stage.isOpen = false) (client : Nat)
    (command : Command) : (h.call client command).taken = h.taken := by
  rw [call_of_closed closed, taken, List.filterMap_append]
  exact List.append_nil _

namespace Kept

variable {start s s' : Show} {cues : List Cue} {c : Cue} {h : House} {l : Letter}
  {ls rest : List Letter} {events : List Show.Event} {fault : Fault}

/-- No two letters have one ticket. -/
theorem nodup (k : Kept start cues h) : (h.taken.map (·.ticket)).Nodup := by
  rw [k.tickets]
  exact List.nodup_range

/-- No letter that was handled has closed the stage. -/
theorem stayed (k : Kept start cues h) (hl : l ∈ letters cues) : l.command ≠ .shutdown := by
  have stays := List.mem_takeWhile_imp (k.timely.subset hl)
  exact bne_iff_ne.1 stays

/-- Letters in front of all that were taken are in time, if none of them closes the stage. -/
theorem inTime_eq (stay : ∀ m ∈ ls, m.command ≠ .shutdown) (split : h.taken = ls ++ rest) :
    h.inTime = ls ++ rest.takeWhile fun m => m.command != .shutdown := by
  rw [inTime, split, List.takeWhile_append_of_pos]
  exact fun m hm => bne_iff_ne.2 (stay m hm)

/-- Closing a stage that has handled what came in time. -/
theorem close (k : Kept start cues h) (ends : letters cues = h.inTime) :
    Kept start cues { h with stage := h.stage.close } where
  tickets := k.tickets
  waiting := fun contra => nomatch contra
  cleared := fun _ => rfl
  closed := fun _ => Or.inl ends
  timely := k.timely
  shows := fun _ contra => nomatch contra
  replied := k.replied
  unreplied := k.unreplied

/-- A call at an open stage adds a letter, and one at a closed stage does not. -/
theorem call (k : Kept start cues h) (client : Nat) (command : Command) :
    Kept start cues (h.call client command) := by
  cases opened : h.stage.isOpen with
  | false =>
      have same := taken_call_of_closed opened client command
      rw [call_of_closed opened] at same ⊢
      exact {
        tickets := same ▸ k.tickets
        waiting := same ▸ k.waiting
        cleared := k.cleared
        closed := by rw [inTime, same]; exact k.closed
        timely := by rw [inTime, same]; exact k.timely
        shows := k.shows
        replied := k.replied
        unreplied := k.unreplied }
  | true =>
      have more := taken_call_of_open opened client command
      rw [call_of_open opened] at more ⊢
      exact {
        tickets := by
          rw [more, List.map_append, k.tickets, List.range_succ]
          rfl
        waiting := fun _ => by
          rw [more, ← k.waiting opened, List.append_assoc]
        cleared := fun closed => nomatch opened.symm.trans closed
        closed := fun closed => nomatch opened.symm.trans closed
        timely := by
          rw [inTime, more, ← k.waiting opened, List.append_assoc, List.takeWhile_append_of_pos]
          · exact List.prefix_append _ _
          · exact fun m hm => bne_iff_ne.2 (k.stayed hm)
        shows := k.shows
        replied := k.replied
        unreplied := k.unreplied }

/-! ### Cues

A cue is what an open stage does with its show, so the letters that it handles are the first of
those that wait. -/

/-- The letters of a cue are new. -/
theorem fresh (k : Kept start cues h) (hs : h.stage.show? = some s)
    (hm : h.stage.mailbox = letters [c] ++ rest) :
    ∀ m ∈ letters cues, ∀ l ∈ letters [c], l.ticket ≠ m.ticket := by
  have opened := Stage.isOpen_of_show hs
  have nodup := k.nodup
  rw [← k.waiting opened, hm, List.map_append, List.nodup_append] at nodup
  exact fun m hmem l hl => (nodup.2.2 _ (List.mem_map_of_mem hmem) _
    (List.mem_map_of_mem (List.mem_append_left _ hl))).symm

/-- They come in time, and behind those that were handled. -/
theorem timely_cue (k : Kept start cues h) (hs : h.stage.show? = some s)
    (hm : h.stage.mailbox = letters [c] ++ rest)
    (stays : ∀ l ∈ letters [c], l.command ≠ .shutdown) :
    letters (cues ++ [c]) <+: h.inTime := by
  have opened := Stage.isOpen_of_show hs
  have split := (k.waiting opened).symm
  rw [hm, ← List.append_assoc, ← Cue.letters_append] at split
  rw [inTime_eq _ split]
  · exact List.prefix_append _ _
  · intro m hmem
    rw [Cue.letters_append, List.mem_append] at hmem
    exact hmem.elim k.stayed (stays m)

/-- A letter of a longer script has been handled before, or is handled now. -/
theorem eq_or_concat {before after : List Cue} {now : Int}
    (same : cues ++ [c] = before ++ .letter l now :: after) :
    (cues = before ∧ c = .letter l now) ∨
      ∃ since, after = since ++ [c] ∧ cues = before ++ .letter l now :: since := by
  rcases List.eq_nil_or_concat after with rfl | ⟨since, last, rfl⟩
  · obtain ⟨front, last⟩ := List.append_inj' same rfl
    exact Or.inl ⟨front, List.singleton_inj.1 last⟩
  · rw [List.concat_eq_append, ← List.cons_append, ← List.append_assoc] at same
    obtain ⟨front, last⟩ := List.append_inj' same rfl
    obtain rfl := List.singleton_inj.1 last
    exact Or.inr ⟨since, List.concat_eq_append, front⟩

/-- **A cue that the show follows.** -/
theorem follow (k : Kept start cues h) (hs : h.stage.show? = some s)
    (hm : h.stage.mailbox = letters [c] ++ rest)
    (stays : ∀ l ∈ letters [c], l.command ≠ .shutdown)
    (hr : s.run c.action?.toList = .ok (events, s')) :
    Kept start (cues ++ [c]) { h with stage := { h.stage with
      show? := some s'
      mailbox := rest
      replies := h.stage.replies ++ (c.reply? s).toList } } := by
  have opened := Stage.isOpen_of_show hs
  obtain ⟨earlier, hearlier⟩ := k.shows s hs
  have fresh := k.fresh hs hm
  exact {
    tickets := k.tickets
    waiting := fun _ => by
      rw [Cue.letters_append, List.append_assoc, ← hm]
      exact k.waiting opened
    cleared := fun contra => nomatch contra
    closed := fun contra => nomatch contra
    timely := k.timely_cue hs hm stays
    shows := by
      intro t ht
      obtain rfl := Option.some.inj ht
      refine ⟨earlier ++ events, ?_⟩
      rw [Cue.actions_append, Cue.actions_singleton]
      exact Show.run_append.2 ⟨_, _, _, hearlier, hr, rfl⟩
    replied := by
      intro before m now after same
      rcases eq_or_concat same with ⟨rfl, rfl⟩ | ⟨since, -, rfl⟩
      · have new := k.unreplied m.ticket fun n hn => (fresh n hn m List.mem_cons_self).symm
        exact ⟨earlier, s, hearlier, Stage.lookup_reply new now⟩
      · obtain ⟨events, t, hrun, reply⟩ := k.replied before m now since rfl
        exact ⟨events, t, hrun, (Stage.lookup_other (fresh m (by simp))).trans reply⟩
    unreplied := by
      intro ticket none
      rw [Cue.letters_append] at none
      exact (Stage.lookup_other fun l hl => none l (List.mem_append_right _ hl)).trans
        (k.unreplied ticket fun l hl => none l (List.mem_append_left _ hl)) }

/-- **A cue at which the show is at fault.** -/
theorem fail (k : Kept start cues h) (hs : h.stage.show? = some s)
    (hm : h.stage.mailbox = letters [c] ++ rest)
    (stays : ∀ l ∈ letters [c], l.command ≠ .shutdown)
    (hr : s.run c.action?.toList = .error fault) :
    Kept start (cues ++ [c]) { h with stage := h.stage.close } := by
  obtain ⟨earlier, hearlier⟩ := k.shows s hs
  have fresh := k.fresh hs hm
  exact {
    tickets := k.tickets
    waiting := fun contra => nomatch contra
    cleared := fun _ => rfl
    closed := fun _ => by
      rw [Cue.actions_append, Cue.actions_singleton]
      exact Or.inr (Show.run_append_error hearlier hr)
    timely := k.timely_cue hs hm stays
    shows := fun _ contra => nomatch contra
    replied := by
      intro before m now after same
      rcases eq_or_concat same with ⟨rfl, rfl⟩ | ⟨since, -, rfl⟩
      · have new := k.unreplied m.ticket fun n hn => (fresh n hn m List.mem_cons_self).symm
        exact ⟨earlier, s, hearlier, new.trans (Command.reply_eq_none_of_fault hr).symm⟩
      · exact k.replied before m now since rfl
    unreplied := by
      intro ticket none
      rw [Cue.letters_append] at none
      exact k.unreplied ticket fun l hl => none l (List.mem_append_left _ hl) }

/-! ### Moves -/

/-- Handling a letter that does not close the stage. -/
theorem handle (k : Kept start cues h) (hs : h.stage.show? = some s)
    (hm : h.stage.mailbox = l :: ls) (stays : l.command ≠ .shutdown) :
    Kept start (cues ++ [.letter l h.stage.clock.now]) { h with stage := h.stage.work } := by
  have stay : ∀ m ∈ letters [.letter l h.stage.clock.now], m.command ≠ .shutdown :=
    fun m hmem => List.mem_singleton.1 hmem ▸ stays
  cases run : s.run (l.command.action? h.stage.clock.now).toList with
  | ok r =>
      rw [Stage.work_letter hs hm stays run]
      exact k.follow hs hm stay run
  | error fault =>
      rw [Stage.work_fault hs hm run]
      exact k.fail hs hm stay run

/-- A beat at an open stage. -/
theorem beat (k : Kept start cues h) (hs : h.stage.show? = some s) :
    Kept start (cues ++ [.beat h.stage.clock.now]) { h with stage := h.stage.beat } := by
  have stay : ∀ m ∈ letters [.beat h.stage.clock.now], m.command ≠ .shutdown :=
    fun _ contra => nomatch contra
  cases run : s.run [.advance h.stage.clock.now] with
  | ok r =>
      have follows := k.follow hs rfl stay run
      rw [Cue.reply?, Option.toList_none, List.append_nil] at follows
      rw [Stage.beat_advance hs run]
      exact follows
  | error fault =>
      rw [Stage.beat_fault hs run]
      exact k.fail hs rfl stay run

/-- Work. -/
theorem work (k : Kept start cues h) :
    Kept start (cues ++ (h.cue? .work).toList) h.work := by
  rw [House.work]
  cases hs : h.stage.show? with
  | none =>
      have same : h.stage.close = h.stage := by
        rw [Stage.close, ← hs, ← k.cleared (Stage.isOpen_eq_false_iff.2 hs)]
      rw [cue_work_closed hs, Option.toList_none, List.append_nil, Stage.work_closed hs, same,
        ite_self]
      exact k
  | some s =>
      have opened := Stage.isOpen_of_show hs
      have split := k.waiting opened
      have stayed : ∀ m ∈ letters cues, m.command ≠ .shutdown := fun m => k.stayed
      cases hm : h.stage.mailbox with
      | nil =>
          rw [hm] at split
          rw [cue_work_idle hm, Option.toList_none, List.append_nil, Stage.work_idle hm]
          by_cases alone : h.clients = []
          · -- nobody is left to send another letter
            rw [if_pos ⟨alone, rfl⟩]
            refine k.close ?_
            rw [inTime_eq stayed split.symm, List.takeWhile_nil, List.append_nil]
          · rw [if_neg fun both => alone both.1]
            exact k
      | cons l ls =>
          rw [hm] at split
          rw [if_neg fun both => nomatch both.2]
          by_cases ends : l.command = .shutdown
          · rw [cue_work_shutdown hs hm ends, Option.toList_none, List.append_nil,
              Stage.work_shutdown hs hm ends]
            refine k.close ?_
            rw [inTime_eq stayed split.symm, List.takeWhile_cons_of_neg (by simp [ends]),
              List.append_nil]
          · rw [cue_work_letter hs hm ends, Option.toList_some]
            exact k.handle hs hm ends

/-- **A move** keeps the script. -/
theorem move (k : Kept start cues h) (m : Move) :
    Kept start (cues ++ (h.cue? m).toList) (h.move m) := by
  cases m with
  | work => exact k.work
  | call client command =>
      rw [cue?, Option.toList_none, List.append_nil, House.move]
      split
      · exact k.call client command
      · exact k
  | share client other =>
      rw [cue?, Option.toList_none, List.append_nil, House.move]
      split
      · exact { k with }
      · exact k
  | leave client =>
      rw [cue?, Option.toList_none, List.append_nil]
      exact { k with }
  | setClock clock =>
      rw [cue?, Option.toList_none, List.append_nil]
      exact { k with }
  | beat =>
      rw [House.move]
      cases hs : h.stage.show? with
      | none =>
          rw [cue_beat_closed hs, Stage.beat_closed hs, Option.toList_none, List.append_nil]
          exact k
      | some s =>
          rw [cue_beat hs, Option.toList_some]
          exact k.beat hs

/-- **A play** keeps the script. -/
theorem play (k : Kept start cues h) (moves : List Move) :
    Kept start (cues ++ h.script moves) (h.play moves) := by
  induction moves generalizing cues h with
  | nil =>
      rw [script, List.append_nil]
      exact k
  | cons m ms ih =>
      rw [script, ← List.append_assoc]
      exact ih (k.move m)

end Kept

/-- **Every play from the start** keeps the script. -/
theorem kept_play (effects : Effects) (source : WordSource) (clock : Clock) (moves : List Move) :
    Kept (Show.new effects source) ((start effects source clock).script moves)
      ((start effects source clock).play moves) := by
  have atStart : Kept (Show.new effects source) [] (House.start effects source clock) := {
    tickets := rfl
    waiting := fun _ => rfl
    cleared := fun _ => rfl
    closed := fun _ => Or.inl rfl
    timely := List.nil_prefix
    shows := by
      intro s hs
      refine ⟨[], ?_⟩
      change (if effects.timing.tick = 0 then none
        else some (Show.new effects source)) = some s at hs
      split at hs
      · cases hs
      · cases hs
        rfl
    replied := fun before l now after contra => by simp at contra
    unreplied := fun _ _ => rfl }
  exact atStart.play moves

end House

end HeartKeypad
