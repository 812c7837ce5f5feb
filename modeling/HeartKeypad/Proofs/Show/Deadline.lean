import HeartKeypad.Proofs.Show.Books

/-!
# Deadlines

A show says when its next timer is due and how many are queued.  Whoever advances it at that instant
misses nothing: before it an advance does nothing at all, and after any advance nothing that was due
is left.  Timers whose heart has been cancelled are no exception; they are queued, come due and are
taken off like the others, so none of them stays for good.

* `Agenda.timers_after` — an advance leaves the timers that are due later.
* `Show.advance_of_early` — before the next deadline an advance changes nothing.
* `Show.Outlived` — every heart that a history has released was to rise and to end by an instant.
* `Show.no_timer_overdue` — nothing is overdue after an advance, and nothing is left when all hearts
  are outlived.

### What the order of the agenda is good for

Firing stops at the first timer that is not due, and does not look behind it.  That nothing due
stands there is what the order says (`Agenda.mem_after_iff`), whatever bursts and cancellations have
made of the agenda, and whether or not the instants increased.
-/

namespace HeartKeypad

namespace Agenda

variable {a b : Agenda} {t : Int}

/-- An agenda is known by its timers. -/
theorem ext_timers (same : a.timers = b.timers) : a = b := by
  cases a
  cases b
  cases same
  rfl

/-- **What is left on an agenda are the timers that are due later.** -/
theorem timers_after (a : Agenda) (now : Int) :
    (a.after now).timers = a.timers.filter fun t => decide (now < t.due) := by
  have fired : (a.due now).filter (fun t => decide (now < t.due)) = [] := by
    refine List.filter_eq_nil_iff.2 fun t ht => ?_
    rw [decide_eq_true_eq]
    exact Int.not_lt.2 (mem_due ht).2
  have left : (a.after now).timers.filter (fun t => decide (now < t.due)) =
      (a.after now).timers :=
    List.filter_eq_self.2 fun t ht => decide_eq_true (mem_after_iff.1 ht).2
  calc (a.after now).timers
      = (a.due now ++ (a.after now).timers).filter fun t => decide (now < t.due) := by
        rw [List.filter_append, fired, left, List.nil_append]
    _ = a.timers.filter fun t => decide (now < t.due) := by rw [due_append_after]

theorem lt_of_next?_after {now d : Int} (next : (a.after now).next? = some d) : now < d := by
  obtain ⟨u, head, rfl⟩ := Option.map_eq_some_iff.1 next
  exact (mem_after_iff.1 (List.mem_of_mem_head? head)).2

/-- No timer is due before the next one. -/
theorem lt_due_of_early (early : ∀ d, a.next? = some d → t < d) : ∀ u ∈ a.timers, t < u.due := by
  have sorted := a.sorted
  cases queued : a.timers with
  | nil => exact fun _ hu => nomatch hu
  | cons first us =>
      rw [queued] at sorted
      have next : t < first.due := early first.due (by rw [next?, queued]; rfl)
      refine List.forall_mem_cons.2 ⟨next, fun u hu => ?_⟩
      exact Int.lt_of_lt_of_le next ((List.pairwise_cons.1 sorted).1 u hu).due_le

theorem due_of_early (early : ∀ d, a.next? = some d → t < d) : a.due t = [] := by
  refine List.eq_nil_iff_forall_not_mem.2 fun u hu => ?_
  obtain ⟨queued, due⟩ := mem_due hu
  exact absurd (lt_due_of_early early u queued) (Int.not_lt.2 due)

theorem after_of_early (early : ∀ d, a.next? = some d → t < d) : a.after t = a := by
  refine ext_timers ?_
  rw [timers_after]
  exact List.filter_eq_self.2 fun u hu => decide_eq_true (lt_due_of_early early u hu)

end Agenda

namespace Show

variable {e : Effects} {source : WordSource} {s s' : Show} {history : List Action}
  {log events : List Event} {now : Int}

/-- **Before the next deadline an advance changes nothing**: it reports nothing and draws no
words. -/
theorem advance_of_early {t : Int} (early : ∀ d, s.nextDeadline? = some d → t < d) :
    s.advance t = .ok ([], s) := by
  rw [advance, Agenda.due_of_early early, Agenda.after_of_early early]
  rfl

theorem lt_nextDeadline?_of_advance (h : s.advance now = .ok (events, s')) {d : Int}
    (next : s'.nextDeadline? = some d) : now < d := by
  rw [nextDeadline?, agenda_advance h] at next
  exact Agenda.lt_of_next?_after next

theorem pendingTimers_of_advance (h : s.advance now = .ok (events, s')) :
    s'.pendingTimers = s.agenda.timers.countP fun t => decide (now < t.due) := by
  rw [pendingTimers, agenda_advance h, Agenda.timers_after, List.countP_eq_length_filter]

/-! ### When all hearts are outlived -/

/-- **Every heart that the history has released was to rise and to end by the instant.** -/
def Outlived (start : Show) (history : List Action) (now : Int) : Prop :=
  ∀ before origin t since born, history = before ++ .burst origin t :: since →
    Released start before origin t born → ∀ b ∈ born,
      b.riseAt start.effects.timing ≤ now ∧ b.endAt start.effects.timing ≤ now

/-- The hearts of a burst are born at its instant. -/
theorem Released.createdAt {start : Show} {before : List Action} {origin : Point} {t : Int}
    {born : List Heart} (released : Released start before origin t born) :
    ∀ b ∈ born, b.createdAt = t := by
  obtain ⟨-, s₀, s₁, -, burst, live⟩ := released
  obtain ⟨born', -, bears⟩ := bears_of_burst burst
  obtain rfl := List.append_cancel_left (live.symm.trans bears.live)
  exact bears.createdAt

/-- So it is enough to look at the instants of the bursts. -/
theorem outlived_of_bursts {start : Show} (past : ∀ origin t, .burst origin t ∈ history →
      t + start.effects.timing.riseSpan ≤ now ∧ t + start.effects.timing.lifeSpan ≤ now) :
    Outlived start history now := by
  rintro before origin t since born rfl released b hb
  rw [Heart.riseAt, Heart.endAt, released.createdAt b hb]
  exact past origin t (by simp)

/-- **Nothing is left once all hearts are outlived**: every timer is one of the two of a heart that
has been released, and every live heart has a timer. -/
theorem empty_of_outlived (reached : (new e source).run history = .ok (log, s))
    (advanced : s.advance now = .ok (events, s')) (outlived : Outlived (new e source) history now) :
    s'.live = [] ∧ s'.agenda.timers = [] := by
  have start := steady_new e source
  have spent : s'.agenda.timers = [] := by
    refine List.eq_nil_iff_forall_not_mem.2 fun u hu => ?_
    rw [agenda_advance advanced, Agenda.mem_after_iff] at hu
    obtain ⟨before, origin, t, since, born, split, released, b, hb, -, timer⟩ :=
      timer_released_of_run start reached hu.1 (Nat.zero_le _)
    obtain ⟨rises, ends⟩ := outlived before origin t since born split released b hb
    rcases timer with rfl | rfl
    · exact absurd hu.2 (Int.not_lt.2 rises)
    · exact absurd hu.2 (Int.not_lt.2 ends)
  refine ⟨List.eq_nil_iff_forall_not_mem.2 fun h hh => ?_, spent⟩
  have pending := ((start.run reached).advance advanced).ends h hh
  rw [spent] at pending
  cases pending

/-- **No timer is overdue, and none is left over.**  Whatever a show has been asked to do, under
any settings and at any instants: if an advance succeeds, the next deadline behind it, if there is
one, is later; the timers still queued are as many as were queued for later, whether their hearts
are live or not; and if the instant is past the rise and the end of every heart that was ever
released, no heart and no timer is left.  Before the next deadline, or at any instant if there is
none, an advance succeeds, reports nothing and leaves the show as it is. -/
theorem no_timer_overdue (reached : (new e source).run history = .ok (log, s)) :
    (∀ now events s', s.advance now = .ok (events, s') →
      (∀ d, s'.nextDeadline? = some d → now < d) ∧
      s'.pendingTimers = s.agenda.timers.countP (fun t => decide (now < t.due)) ∧
      (Outlived (new e source) history now → s'.snapshot = [] ∧ s'.pendingTimers = 0)) ∧
    ∀ t, (∀ d, s.nextDeadline? = some d → t < d) → s.advance t = .ok ([], s) := by
  refine ⟨fun now events s' advanced => ⟨fun d => lt_nextDeadline?_of_advance advanced,
    pendingTimers_of_advance advanced, fun outlived => ?_⟩, fun t => advance_of_early⟩
  obtain ⟨ended, spent⟩ := empty_of_outlived reached advanced outlived
  exact ⟨ended, List.length_eq_zero_iff.2 spent⟩

/-- Two hearts, of which the first is cancelled while it waits.  Its timers are queued all the same:
they make the next deadline, before which nothing happens; when they have come due, the end of the
second heart is the one timer left; and with that nothing is left. -/
theorem no_timer_overdue_of_two_hearts :
    ∃ log s, (new single ⟨[0], 0⟩).run [.burst ⟨3.0, 4.0⟩ 0, .burst ⟨5.0, 6.0⟩ 5, .cancel 0] =
        .ok (log, s) ∧
      s.pendingTimers = 4 ∧ s.nextDeadline? = some 10000000 ∧
      s.advance 9999999 = .ok ([], s) ∧
      (∃ events s', s.advance 2100000000 = .ok (events, s') ∧ s'.pendingTimers = 1) ∧
      ∃ events s', s.advance 2100000005 = .ok (events, s') ∧ s'.snapshot = [] ∧
        s'.pendingTimers = 0 := by
  obtain ⟨log, s, reached, pending, next, left, first, last⟩ : ∃ log s,
      (new single ⟨[0], 0⟩).run [.burst ⟨3.0, 4.0⟩ 0, .burst ⟨5.0, 6.0⟩ 5, .cancel 0] =
        .ok (log, s) ∧ s.pendingTimers = 4 ∧ s.nextDeadline? = some 10000000 ∧
      s.agenda.timers.countP (fun t => decide (2100000000 < t.due)) = 1 ∧
      (∃ r, s.advance 2100000000 = .ok r) ∧ ∃ r, s.advance 2100000005 = .ok r :=
    ⟨_, _, rfl, rfl, rfl, rfl, ⟨_, rfl⟩, ⟨_, rfl⟩⟩
  obtain ⟨⟨events₁, s₁⟩, first⟩ := first
  obtain ⟨⟨events₂, s₂⟩, last⟩ := last
  obtain ⟨advances, early⟩ := no_timer_overdue reached
  refine ⟨log, s, reached, pending, next, early 9999999 fun d due => ?_,
    ⟨events₁, s₁, first, (advances _ _ _ first).2.1.trans left⟩, events₂, s₂, last,
    (advances _ _ _ last).2.2 (outlived_of_bursts fun origin t burst => ?_)⟩
  · rw [next] at due
    cases due
    decide
  · have rise : (new single ⟨[0], 0⟩).effects.timing.riseSpan = 10000000 := rfl
    have life : (new single ⟨[0], 0⟩).effects.timing.lifeSpan = 2100000000 := rfl
    rw [rise, life]
    simp at burst
    omega

end Show

end HeartKeypad
