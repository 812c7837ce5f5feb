import HeartKeypad.Proofs.Settings.Effects
import HeartKeypad.Proofs.Stage.Delivery

/-!
# Counting hearts while the clock stands still

With a clock that stands still no heart comes to its end: it may rise at once, but it ends
later than it is born.  So the hearts on a stage are those of its bursts, each as many as the
settings say.

* `Show.Lasting` — no heart ends at an instant or before it.
* `Stage.Accounts` — an open stage accounts for a number of hearts.
* `Stage.Accounts.hearts` — asked for its hearts, it shows as many.

### What is counted

A burst is acknowledged while its letter still waits, so hearts are counted with the letters:
those that live, and a burst for every letter.  Handling a letter moves a burst from one to the
other, and beats let hearts rise only.  A stage that has closed accounts for nothing, which is
why the count speaks of the show of an open one.
-/

namespace HeartKeypad

namespace Show

variable {s s' : Show} {now : Int} {t : Timer} {ts : List Timer} {events : List Event}

/-- **No heart ends yet**: every timer that would end one is due later. -/
def Lasting (now : Int) (s : Show) : Prop :=
  ∀ t ∈ s.agenda.timers, t.effect = .expire → now < t.due

/-- A timer that lets a heart rise leaves their number alone. -/
theorem length_of_fires (rises : t.effect = .rise) (h : Fires t s events s') :
    s'.live.length = s.live.length := by
  cases h with
  | rises _ _ _ => exact List.length_map _
  | late _ _ => rfl
  | ends expires _ => cases rises.symm.trans expires
  | gone expires _ => cases rises.symm.trans expires

theorem length_of_fireAll (rise : ∀ t ∈ ts, t.effect = .rise)
    (h : fireAll ts s = .ok (events, s')) : s'.live.length = s.live.length := by
  induction ts generalizing s events with
  | nil =>
      cases h
      rfl
  | cons t ts ih =>
      obtain ⟨first, s₁, more, ht, hts, -⟩ := fireAll_cons.1 h
      have rest := ih (fun u hu => rise u (List.mem_cons_of_mem t hu)) hts
      exact rest.trans (length_of_fires (rise t List.mem_cons_self) (fires_of_fire ht))

namespace Lasting

theorem new (effects : Effects) (source : WordSource) : Lasting now (Show.new effects source) :=
  fun _ none => nomatch none

/-- **An advance ends no heart** as long as none is due to end. -/
theorem advance (l : Lasting now s) (h : s.advance now = .ok (events, s')) :
    Lasting now s' ∧ s'.live.length = s.live.length ∧ s'.effects = s.effects := by
  have fires : fireAll (s.agenda.due now) { s with agenda := s.agenda.after now } =
      .ok (events, s') := h
  have rise : ∀ t ∈ s.agenda.due now, t.effect = .rise := by
    intro t ht
    obtain ⟨queued, due⟩ := Agenda.mem_due ht
    cases effect : t.effect with
    | rise => rfl
    | expire => exact absurd (l t queued effect) (Int.not_lt.2 due)
  have same := length_of_fireAll rise fires
  refine ⟨fun t ht expires => ?_, same, (sameFrame_fireAll fires).effects⟩
  rw [agenda_advance h, Agenda.mem_after_iff] at ht
  exact ht.2

theorem release {origin : Point} {riseAt endAt : Int} (l : Lasting now s) (later : now < endAt)
    (h : s.release origin now riseAt endAt = .ok s') : Lasting now s' := by
  obtain ⟨heart, w, -, -, -, rfl⟩ := release_eq_ok h
  intro t ht expires
  rcases Agenda.mem_insert.1 ht with rfl | ht
  · exact later
  · rcases Agenda.mem_insert.1 ht with rfl | ht
    · cases expires
    · exact l t ht expires

theorem releaseMany {origin : Point} {riseAt endAt : Int} {n : Nat} (l : Lasting now s)
    (later : now < endAt) (h : s.releaseMany origin now riseAt endAt n = .ok s') :
    Lasting now s' := by
  induction n generalizing s with
  | zero =>
      cases h
      exact l
  | succ n ih =>
      obtain ⟨s₁, first, rest⟩ := bind_eq_ok_iff.1 h
      exact ih (l.release later first) rest

/-- **A burst adds its hearts**, and none of them ends at once. -/
theorem burst {origin : Point} (l : Lasting now s) (valid : s.effects.Valid)
    (h : s.burst origin now = .ok s') :
    Lasting now s' ∧ s'.live.length = s.live.length + s.effects.burst.count.toNat ∧
      s'.effects = s.effects := by
  obtain ⟨born, count, bears⟩ := bears_of_burst h
  refine ⟨l.releaseMany ?_ (releaseMany_of_burst h), ?_, bears.effects⟩
  · have long := valid.lifeSpan_pos
    omega
  · rw [bears.live, List.length_append, count]

end Lasting

end Show

namespace Stage

variable {st : Stage} {effects : Effects} {now : Int} {n k : Nat} {ls : List Letter}

/-! ### A stage that works through its mailbox -/

/-- A closed stage does not open again. -/
theorem isOpen_of_work (opened : st.work.isOpen = true) : st.isOpen = true := by
  by_contra closed
  rw [work_closed (isOpen_eq_false_iff.1 (Bool.eq_false_iff.2 closed))] at opened
  exact closed opened

theorem isOpen_of_workMany (opened : (workMany n st).isOpen = true) : st.isOpen = true := by
  induction n generalizing st with
  | zero => exact opened
  | succ n ih => exact isOpen_of_work (ih opened)

theorem isOpen_of_drain (opened : st.drain.isOpen = true) : st.isOpen = true :=
  isOpen_of_workMany opened

theorem isOpen_of_beat (opened : st.beat.isOpen = true) : st.isOpen = true := by
  by_contra closed
  rw [beat_closed (isOpen_eq_false_iff.1 (Bool.eq_false_iff.2 closed))] at opened
  exact closed opened

theorem isOpen_of_send {command : Command} {ticket : Nat} {st' : Stage}
    (h : st.send command = .ok (ticket, st')) : st.isOpen = true := by
  unfold send at h
  split at h
  · assumption
  · cases h

/-- Real time passes with a beat or without. -/
theorem elapse_eq (milliseconds : Nat) (st : Stage) :
    st.elapse milliseconds = { st with elapsed := st.elapsed + milliseconds }.beat ∨
      st.elapse milliseconds = { st with elapsed := st.elapsed + milliseconds } := by
  unfold elapse
  split
  · dsimp only
    split
    · exact Or.inl rfl
    · exact Or.inr rfl
  · exact Or.inr rfl

theorem isOpen_of_elapse {milliseconds : Nat} (opened : (st.elapse milliseconds).isOpen = true) :
    st.isOpen = true := by
  rcases st.elapse_eq milliseconds with beat | still
  · rw [beat] at opened
    have later : { st with elapsed := st.elapsed + milliseconds }.isOpen = true :=
      isOpen_of_beat opened
    exact later
  · rw [still] at opened
    exact opened

theorem workMany_add (m n : Nat) (st : Stage) :
    workMany (m + n) st = workMany n (workMany m st) := by
  induction m generalizing st with
  | zero => rw [Nat.zero_add, workMany]
  | succ m ih => rw [Nat.succ_add, workMany, workMany, ih]

/-- The stage with more letters behind those that wait, and another ticket to give next. -/
def behind (ls : List Letter) (k : Nat) (st : Stage) : Stage :=
  { st with mailbox := st.mailbox ++ ls, nextTicket := k }

/-- Letters that wait further behind make no difference to the one that is handled. -/
theorem work_behind (waits : st.mailbox ≠ []) (opened : st.work.isOpen = true) :
    (st.behind ls k).work = st.work.behind ls k := by
  obtain ⟨s, hs⟩ := Option.isSome_iff_exists.1 (isOpen_of_work opened)
  obtain ⟨l, rest, hm⟩ := List.exists_cons_of_ne_nil waits
  have stays := (mailbox_work hs hm opened).2
  cases run : s.run (l.command.action? st.clock.now).toList with
  | error fault =>
      rw [work_fault hs hm run] at opened
      cases opened
  | ok r =>
      have more : (st.behind ls k).mailbox = l :: (rest ++ ls) := congrArg (· ++ ls) hm
      have same : (st.behind ls k).show? = some s := hs
      rw [work_letter hs hm stays run, work_letter same more stays run]
      rfl

theorem mailbox_workMany (opened : (workMany n st).isOpen = true) :
    (workMany n st).mailbox = st.mailbox.drop n := by
  induction n generalizing st with
  | zero => rfl
  | succ n ih =>
      have first := isOpen_of_workMany (n := n) opened
      obtain ⟨s, hs⟩ := Option.isSome_iff_exists.1 (isOpen_of_work first)
      rw [workMany, ih opened]
      cases hm : st.mailbox with
      | nil => rw [work_idle hm, hm, List.drop_nil, List.drop_nil]
      | cons l rest => rw [(mailbox_work hs hm first).1, List.drop_succ_cons]

/-- **A stage handles what waits as it would without the letters behind.** -/
theorem workMany_behind (enough : n ≤ st.mailbox.length)
    (opened : (workMany n st).isOpen = true) :
    workMany n (st.behind ls k) = (workMany n st).behind ls k := by
  induction n generalizing st with
  | zero => rfl
  | succ n ih =>
      have first := isOpen_of_workMany (n := n) opened
      have rest : st.work.mailbox = st.mailbox.drop 1 := mailbox_workMany (n := 1) first
      rw [workMany, work_behind (List.ne_nil_of_length_pos (by omega)) first, workMany]
      exact ih (by rw [rest, List.length_drop]; omega) opened

theorem mailbox_drain (opened : st.drain.isOpen = true) : st.drain.mailbox = [] :=
  (mailbox_workMany opened).trans List.drop_length

/-- **A question behind all that waits** is answered by the show as it is then. -/
theorem replies_asked {s : Show} {t : Nat} (hs : st.drain.show? = some s) :
    (st.behind [⟨t, .snapshot⟩] k).drain.replies = st.drain.replies ++ [(t, .hearts s.live)] := by
  have opened : st.drain.isOpen = true := Option.isSome_iff_exists.2 ⟨s, hs⟩
  have worked : workMany st.mailbox.length (st.behind [⟨t, .snapshot⟩] k) =
      st.drain.behind [⟨t, .snapshot⟩] k := workMany_behind (Nat.le_refl _) opened
  have more : (st.behind [⟨t, .snapshot⟩] k).mailbox.length = st.mailbox.length + 1 :=
    List.length_append
  -- all that is left is the letter that asks
  have last : (st.drain.behind [⟨t, .snapshot⟩] k).mailbox = [⟨t, .snapshot⟩] := by
    rw [behind, mailbox_drain opened]
    rfl
  have same : (st.drain.behind [⟨t, .snapshot⟩] k).show? = some s := hs
  rw [drain, more, workMany_add, worked, workMany, workMany,
    work_letter same last Command.noConfusion rfl]
  rfl

/-! ### What a stage accounts for -/

/-- **An open stage accounts for a number of hearts**: those that live, and a burst for every
letter that waits.  It has been asked for bursts only. -/
structure Accounts (effects : Effects) (now : Int) (n : Nat) (st : Stage) : Prop where
  clock : st.clock.now = now
  bursts : ∀ l ∈ st.mailbox, ∃ origin, l.command = .burst origin
  replies : st.replies = []
  settings : ∀ s, st.show? = some s → s.effects = effects
  lasting : ∀ s, st.show? = some s → s.Lasting now
  count : ∀ s, st.show? = some s →
    s.live.length + effects.burst.count.toNat * st.mailbox.length = n

namespace Accounts

theorem start (effects : Effects) (source : WordSource) (clock : Clock) :
    Accounts effects clock.now 0 (Stage.start (Show.new effects source) clock) := by
  have fresh : ∀ s, (Stage.start (Show.new effects source) clock).show? = some s →
      s = Show.new effects source := by
    intro s hs
    change (if effects.timing.tick = 0 then none else some _) = some s at hs
    split at hs
    · cases hs
    · exact (Option.some.inj hs).symm
  exact {
    clock := rfl
    bursts := fun _ none => nomatch none
    replies := rfl
    settings := fun s hs => fresh s hs ▸ rfl
    lasting := fun s hs => fresh s hs ▸ Show.Lasting.new effects source
    count := fun s hs => by
      rw [fresh s hs]
      rfl }

/-- A closed stage accounts for any number. -/
theorem of_closed (a : Accounts effects now n st) (closed : st.show? = none) (m : Nat) :
    Accounts effects now m st where
  clock := a.clock
  bursts := a.bursts
  replies := a.replies
  settings := fun _ opened => nomatch closed.symm.trans opened
  lasting := fun _ opened => nomatch closed.symm.trans opened
  count := fun _ opened => nomatch closed.symm.trans opened

theorem close (a : Accounts effects now n st) : Accounts effects now n st.close where
  clock := a.clock
  bursts := fun _ none => nomatch none
  replies := a.replies
  settings := fun _ opened => nomatch opened
  lasting := fun _ opened => nomatch opened
  count := fun _ opened => nomatch opened

/-- **Work** turns a letter into hearts. -/
theorem work (valid : effects.Valid) (a : Accounts effects now n st) :
    Accounts effects now n st.work := by
  cases hs : st.show? with
  | none =>
      rw [work_closed hs]
      exact a
  | some s =>
      cases hm : st.mailbox with
      | nil =>
          rw [work_idle hm]
          exact a
      | cons l ls =>
          obtain ⟨origin, command⟩ := a.bursts l (by rw [hm]; exact List.mem_cons_self)
          obtain rfl := a.settings s hs
          have handled : st.work =
              { st with mailbox := ls }.settle (s.burst origin st.clock.now) := by
            rw [Stage.work, hs, hm]
            dsimp only
            rw [handle, command]
          rw [handled, a.clock]
          cases burst : s.burst origin now with
          | error fault => exact a.close
          | ok s' =>
              obtain ⟨lasts, count, same⟩ := (a.lasting s hs).burst valid burst
              have before := a.count s hs
              rw [hm, List.length_cons, Nat.mul_succ] at before
              exact {
                clock := a.clock
                bursts := fun m hmem => a.bursts m (by rw [hm]; exact List.mem_cons_of_mem l hmem)
                replies := a.replies
                settings := fun t ht => Option.some.inj ht ▸ same
                lasting := fun t ht => Option.some.inj ht ▸ lasts
                count := fun t ht => by
                  obtain rfl := Option.some.inj ht
                  show s'.live.length + _ * ls.length = n
                  omega }

theorem workMany (valid : effects.Valid) (a : Accounts effects now n st) (m : Nat) :
    Accounts effects now n (Stage.workMany m st) := by
  induction m generalizing st with
  | zero => exact a
  | succ m ih => exact ih (a.work valid)

theorem drain (valid : effects.Valid) (a : Accounts effects now n st) :
    Accounts effects now n st.drain := a.workMany valid _

/-- **A beat** ends no heart. -/
theorem beat (a : Accounts effects now n st) : Accounts effects now n st.beat := by
  cases hs : st.show? with
  | none =>
      rw [beat_closed hs]
      exact a
  | some s =>
      rw [Stage.beat, hs, a.clock]
      dsimp only
      cases advance : s.advance now with
      | error fault =>
          rw [advanced, advance]
          exact a.close
      | ok r =>
          obtain ⟨lasts, count, same⟩ := (a.lasting s hs).advance advance
          rw [advanced, advance]
          exact {
            clock := a.clock
            bursts := a.bursts
            replies := a.replies
            settings := fun t ht => Option.some.inj ht ▸ same.trans (a.settings s hs)
            lasting := fun t ht => Option.some.inj ht ▸ lasts
            count := fun t ht => by
              obtain rfl := Option.some.inj ht
              show r.2.live.length + _ * st.mailbox.length = n
              rw [count]
              exact a.count s hs }

theorem elapse (a : Accounts effects now n st) (milliseconds : Nat) :
    Accounts effects now n (st.elapse milliseconds) := by
  have later : Accounts effects now n { st with elapsed := st.elapsed + milliseconds } := { a with }
  rcases st.elapse_eq milliseconds with beat | still
  · rw [beat]
    exact later.beat
  · rw [still]
    exact later

/-- **A burst that is sent** counts at once. -/
theorem send (a : Accounts effects now n st) {origin : Point} {ticket : Nat} {st' : Stage}
    (h : st.send (.burst origin) = .ok (ticket, st')) :
    Accounts effects now (n + effects.burst.count.toNat) st' := by
  unfold Stage.send at h
  split at h
  · cases h
    exact {
      clock := a.clock
      bursts := fun l hl => by
        rcases List.mem_append.1 hl with hl | hl
        · exact a.bursts l hl
        · exact ⟨origin, congrArg Letter.command (List.mem_singleton.1 hl)⟩
      replies := a.replies
      settings := a.settings
      lasting := a.lasting
      count := fun s hs => by
        have before := a.count s hs
        rw [List.length_append, List.length_singleton, Nat.mul_succ]
        omega }
  · cases h

/-- **The hearts that a stage shows** are those that it accounts for, if it stays open while it
handles what waits. -/
theorem hearts (valid : effects.Valid) (a : Accounts effects now n st)
    (opened : st.drain.isOpen = true) : ∃ hs,
      (st.call .snapshot).1 = .ok (some (.hearts hs)) ∧ hs.length = n := by
  have drained := a.drain valid
  obtain ⟨s, hs⟩ := Option.isSome_iff_exists.1 opened
  refine ⟨s.live, ?_, ?_⟩
  · have sent : st.send .snapshot =
        .ok (st.nextTicket, st.behind [⟨st.nextTicket, .snapshot⟩] (st.nextTicket + 1)) :=
      if_pos (isOpen_of_drain opened)
    rw [Stage.call, sent]
    dsimp only
    rw [replies_asked hs, drained.replies, List.nil_append, List.lookup_cons_self]
    rfl
  · have count := drained.count s hs
    rwa [mailbox_drain opened, List.length_nil, Nat.mul_zero, Nat.add_zero] at count

end Accounts

end Stage

end HeartKeypad
