import HeartKeypad.Proofs.Show.Lives
import Mathlib.Data.List.Perm.Basic

/-!
# The books of a show

A show keeps its live hearts in one book and their timers in another.  Cancelling writes in
the first only, firing takes a timer out of the second before it looks at the first, and a
burst writes in both; still the books agree in every show that a history leads to.

* `Timer.Of` — the timers that do one thing to one heart.
* `Show.Booked` — what the books say of each other, entry by entry.
* `Show.booked_of_run` — they do so whatever has happened.

### Where the entries come from

What the books say of a live heart is `Show.Kept`, read as a count: timers have different
numbers, so a timer that is the only one of its kind is the only entry of its kind.  For the
timers whose heart is gone the history has to be asked: a timer on the agenda was there right
behind the burst that released its heart (`Show.old_timer_of_run`), when that heart was live.
-/

namespace HeartKeypad

/-- The timer does the given thing to the heart with the given number. -/
def Timer.Of (id : Nat) (effect : Effect) (t : Timer) : Prop := t.heart = id ∧ t.effect = effect

instance (id : Nat) (effect : Effect) (t : Timer) : Decidable (t.Of id effect) :=
  inferInstanceAs (Decidable (_ ∧ _))

namespace Show

/-- The timers on the agenda that do the given thing to the heart with the given number. -/
def timersOf (id : Nat) (effect : Effect) (s : Show) : List Timer :=
  s.agenda.timers.filter fun t => decide (t.Of id effect)

/-- **What the two books of a show say of each other**, where the history has led there from
a show without hearts. -/
structure Booked (start : Show) (history : List Action) (s : Show) : Prop where
  /-- A live heart is found under its own number, and nothing else is. -/
  keys : ∀ id h, s.get? id = some h ↔ h ∈ s.live ∧ h.id = id
  /-- No live heart has ended. -/
  unended : ∀ h ∈ s.live, h.phase ≠ .expired
  /-- Timers have different numbers. -/
  seqs : (s.agenda.timers.map (·.seq)).Nodup
  /-- The next number is above all of them. -/
  next : ∀ t ∈ s.agenda.timers, t.seq < s.nextSeq
  /-- Every heart has taken two numbers, so these fit a word of 64 bits as long as fewer than
  2^63 hearts have been born. -/
  count : s.nextSeq = 2 * s.nextId
  /-- A live heart has one timer that ends it, due when its life is over. -/
  ends : ∀ h ∈ s.live, ∃ t, s.timersOf h.id .expire = [t] ∧
    t.due = h.createdAt + s.effects.timing.lifeSpan
  /-- A live heart that waits has one timer that raises it, due when its delay is over and
  queued right before the one that ends it. -/
  waits : ∀ h ∈ s.live, h.phase = .spawned → ∃ t u, s.timersOf h.id .rise = [t] ∧
    s.timersOf h.id .expire = [u] ∧ t.due = h.createdAt + s.effects.timing.riseSpan ∧
    t.seq + 1 = u.seq
  /-- A live heart that rises has no timer that raises it. -/
  rises : ∀ h ∈ s.live, h.phase = .rising → s.timersOf h.id .rise = []
  /-- A timer whose heart is gone is one of the two of a heart that a burst has released. -/
  gone : ∀ t ∈ s.agenda.timers, s.get? t.heart = none →
    ∃ before origin now since born, history = before ++ .burst origin now :: since ∧
      Released start before origin now born ∧ ∃ b ∈ born, b.id = t.heart ∧
        (t = b.riseTimer s.effects.timing ∨ t = b.endTimer s.effects.timing)
  /-- Live or gone, no heart has two timers that do the same. -/
  single : ∀ id effect, (s.timersOf id effect).length ≤ 1

variable {s s' : Show} {events : List Event} {t : Timer}

theorem mem_timersOf {id : Nat} {effect : Effect} :
    t ∈ s.timersOf id effect ↔ t ∈ s.agenda.timers ∧ t.heart = id ∧ t.effect = effect := by
  rw [timersOf, List.mem_filter, decide_eq_true_eq, Timer.Of]

/-! ### Counting timers -/

namespace Steady

theorem nodup_timersOf (k : Steady s) (id : Nat) (effect : Effect) :
    (s.timersOf id effect).Nodup :=
  (List.Nodup.of_map _ k.distinct).filter _

/-- A timer on the agenda is the only one that does what it does to its heart. -/
theorem timersOf_eq_singleton (k : Steady s) (ht : t ∈ s.agenda.timers) :
    s.timersOf t.heart t.effect = [t] := by
  refine List.perm_singleton.1 ?_
  refine (List.perm_ext_iff_of_nodup (k.nodup_timersOf _ _) (List.nodup_singleton t)).2 fun u => ?_
  rw [mem_timersOf, List.mem_singleton]
  constructor
  · rintro ⟨hu, heart, effect⟩
    exact k.unique hu ht heart effect
  · rintro rfl
    exact ⟨ht, rfl, rfl⟩

theorem length_timersOf_le (k : Steady s) (id : Nat) (effect : Effect) :
    (s.timersOf id effect).length ≤ 1 := by
  cases h : s.timersOf id effect with
  | nil => exact Nat.zero_le 1
  | cons t ts =>
      obtain ⟨ht, rfl, rfl⟩ := mem_timersOf.1 (h ▸ List.mem_cons_self : t ∈ s.timersOf id effect)
      rw [k.timersOf_eq_singleton ht] at h
      obtain ⟨-, rfl⟩ := List.cons.inj h
      exact Nat.le_refl 1

theorem timersOf_expire (k : Steady s) {h : Heart} (hh : h ∈ s.live) :
    s.timersOf h.id .expire = [h.endTimer s.effects.timing] :=
  k.timersOf_eq_singleton (k.ends h hh)

/-- A heart that waits has both its timers on the agenda. -/
theorem timersOf_rise_of_spawned (k : Steady s) {h : Heart} (hh : h ∈ s.live)
    (spawned : h.phase = .spawned) :
    s.timersOf h.id .rise = [h.riseTimer s.effects.timing] := by
  rcases k.phase h hh with ⟨-, timer⟩ | ⟨rises, -⟩
  · exact k.timersOf_eq_singleton timer
  · rw [rises.phase] at spawned
    cases spawned

theorem timersOf_rise_of_rising (k : Steady s) {h : Heart} (hh : h ∈ s.live)
    (rising : h.phase = .rising) : s.timersOf h.id .rise = [] := by
  rcases k.phase h hh with ⟨waits, -⟩ | ⟨-, spent⟩
  · rw [waits.phase] at rising
    cases rising
  · refine List.eq_nil_iff_forall_not_mem.2 fun t ht => ?_
    obtain ⟨pending, heart, effect⟩ := mem_timersOf.1 ht
    exact spent t pending effect heart

theorem phase_ne_expired (k : Steady s) {h : Heart} (hh : h ∈ s.live) : h.phase ≠ .expired := by
  rcases k.phase h hh with ⟨waits, -⟩ | ⟨rises, -⟩
  · rw [waits.phase]
    exact fun e => nomatch e
  · rw [rises.phase]
    exact fun e => nomatch e

theorem get?_eq_some_iff (k : Steady s) {id : Nat} {h : Heart} :
    s.get? id = some h ↔ h ∈ s.live ∧ h.id = id := by
  constructor
  · exact mem_of_get?
  · rintro ⟨hh, rfl⟩
    exact k.get?_eq hh

/-- A timer of a live heart is one of its two. -/
theorem timer_eq (k : Steady s) {h : Heart} (hh : h ∈ s.live) (ht : t ∈ s.agenda.timers)
    (same : t.heart = h.id) :
    t = h.riseTimer s.effects.timing ∨ t = h.endTimer s.effects.timing := by
  cases effect : t.effect with
  | rise => exact Or.inl (k.eq_riseTimer ht effect hh same).2
  | expire => exact Or.inr (k.eq_endTimer ht effect hh same)

end Steady

/-! ### Tracing a timer back -/

/-- The hearts of a burst take the next numbers, one by one. -/
theorem ids_of_releaseMany {origin : Point} {now riseAt endAt : Int} {n : Nat}
    (h : s.releaseMany origin now riseAt endAt n = .ok s') :
    s'.live.map (·.id) = s.live.map (·.id) ++ List.range' s.nextId n := by
  induction n generalizing s with
  | zero =>
      cases h
      rw [List.range'_zero, List.append_nil]
  | succ n ih =>
      obtain ⟨s₁, first, rest⟩ := bind_eq_ok_iff.1 h
      obtain ⟨heart, w, number, -, -, rfl⟩ := release_eq_ok first
      rw [ih rest, List.map_append, List.map_singleton, number, List.append_assoc,
        List.singleton_append, List.range'_succ]

/-- A burst queues timers for its own hearts only. -/
theorem old_timer_of_releaseMany {origin : Point} {now riseAt endAt : Int} {n : Nat}
    (h : s.releaseMany origin now riseAt endAt n = .ok s') (ht : t ∈ s'.agenda.timers)
    (old : t.heart < s.nextId) : t ∈ s.agenda.timers := by
  induction n generalizing s with
  | zero =>
      cases h
      exact ht
  | succ n ih =>
      obtain ⟨s₁, first, rest⟩ := bind_eq_ok_iff.1 h
      obtain ⟨heart, w, number, -, -, rfl⟩ := release_eq_ok first
      have before := ih rest (Nat.lt_succ_of_lt old)
      rw [Agenda.mem_insert, Agenda.mem_insert] at before
      rcases before with rfl | rfl | before
      · exact absurd old (Nat.lt_irrefl _)
      · exact absurd old (Nat.lt_irrefl _)
      · exact before

theorem old_timer_of_act {a : Action} (h : s.act a = .ok (events, s'))
    (ht : t ∈ s'.agenda.timers) (old : t.heart < s.nextId) : t ∈ s.agenda.timers := by
  cases a with
  | burst origin now =>
      exact old_timer_of_releaseMany (releaseMany_of_burst (act_burst.1 h).1) ht old
  | advance now =>
      rw [agenda_advance h] at ht
      exact (Agenda.mem_after_iff.1 ht).1
  | cancel id =>
      cases h
      exact ht

/-- A timer of an old heart has been on the agenda all along. -/
theorem old_timer_of_run (k : Steady s) {history : List Action}
    (h : s.run history = .ok (events, s')) (ht : t ∈ s'.agenda.timers)
    (old : t.heart < s.nextId) : t ∈ s.agenda.timers := by
  induction history generalizing s events with
  | nil =>
      cases h
      exact ht
  | cons a as ih =>
      obtain ⟨first, s₁, more, ha, has, -⟩ := run_cons.1 h
      have later := Nat.lt_of_lt_of_le old (Carried.act k ha).nextId
      exact old_timer_of_act ha (ih (k.act ha) has later) old

/-- A timer of a new heart was queued by a burst, for one of the hearts it released. -/
theorem burst_of_new_timer (k : Steady s) {a : Action} (h : s.act a = .ok (events, s'))
    (ht : t ∈ s'.agenda.timers) (new : s.nextId ≤ t.heart) : ∃ origin now born,
      a = .burst origin now ∧ s.burst origin now = .ok s' ∧ s'.live = s.live ++ born ∧
        ∃ b ∈ born, b.id = t.heart := by
  have owned := (k.act h).owned t ht
  cases a with
  | burst origin now =>
      obtain ⟨hburst, -⟩ := act_burst.1 h
      obtain ⟨born, length, bears⟩ := bears_of_burst hburst
      have ids := ids_of_releaseMany (releaseMany_of_burst hburst)
      rw [bears.live, List.map_append] at ids
      have numbers := List.append_cancel_left ids
      rw [bears.nextId, length] at owned
      have mem : t.heart ∈ born.map (·.id) := by
        rw [numbers, List.mem_range'_1]
        exact ⟨new, owned⟩
      obtain ⟨b, hb, same⟩ := List.mem_map.1 mem
      exact ⟨origin, now, born, rfl, hburst, bears.live, b, hb, same⟩
  | advance now =>
      rw [(sameFrame_fireAll h).nextId] at owned
      exact absurd owned (Nat.not_lt.2 new)
  | cancel id =>
      cases h
      exact absurd owned (Nat.not_lt.2 new)

/-- **Every timer on the agenda of a new heart is one of the two of a heart that a burst has
released**, whether that heart is still live or not. -/
theorem timer_released_of_run (k : Steady s) {history : List Action}
    (h : s.run history = .ok (events, s')) (ht : t ∈ s'.agenda.timers)
    (new : s.nextId ≤ t.heart) : ∃ before origin now since born,
      history = before ++ .burst origin now :: since ∧ Released s before origin now born ∧
        ∃ b ∈ born, b.id = t.heart ∧
          (t = b.riseTimer s.effects.timing ∨ t = b.endTimer s.effects.timing) := by
  induction history generalizing s events with
  | nil =>
      cases h
      exact absurd (k.owned t ht) (Nat.not_lt.2 new)
  | cons a as ih =>
      obtain ⟨first, s₁, more, ha, has, -⟩ := run_cons.1 h
      have effects := (Carried.act k ha).effects
      by_cases later : s₁.nextId ≤ t.heart
      · obtain ⟨before, origin, now, since, born, rfl, ⟨reported, s₀, s₂, hbefore, burst⟩, hb⟩ :=
          ih (k.act ha) has later
        rw [effects] at hb
        exact ⟨a :: before, origin, now, since, born, rfl,
          ⟨first ++ reported, s₀, s₂, run_cons.2 ⟨first, s₁, reported, ha, hbefore, rfl⟩,
            burst⟩, hb⟩
      · -- it was queued by the first action, and its heart was live right behind it
        have queued := old_timer_of_run (k.act ha) has ht (Nat.not_le.1 later)
        obtain ⟨origin, now, born, rfl, hburst, live, b, hb, same⟩ :=
          burst_of_new_timer k ha queued new
        have mem : b ∈ s₁.live := by
          rw [live]
          exact List.mem_append_right _ hb
        have timer := (k.act ha).timer_eq mem queued same.symm
        rw [effects] at timer
        exact ⟨[], origin, now, as, born, rfl, ⟨[], s, s₁, rfl, hburst, live⟩, b, hb, same, timer⟩

/-! ### The books agree -/

/-- **The books of a show agree**, whatever bursts, advances and cancellations have led to it,
at any instants and under any settings: live hearts are found under their numbers and have not
ended; no two timers have one number; a live heart has the one timer that ends it, it has the
one that raises it while it waits and none when it rises; and a timer whose heart is gone is
one of the two of a heart released earlier. -/
theorem booked_of_run {effects : Effects} {source : WordSource} {history : List Action}
    (h : (new effects source).run history = .ok (events, s)) :
    Booked (new effects source) history s := by
  have k₀ := steady_new effects source
  have k : Steady s := k₀.run h
  have timing : s.effects.timing = effects.timing := by rw [(Carried.run k₀ h).effects]; rfl
  constructor
  · exact fun id g => k.get?_eq_some_iff
  · exact fun g hg => k.phase_ne_expired hg
  · exact k.distinct
  · intro t ht
    rw [k.count]
    exact k.seq_lt ht
  · exact k.count
  · exact fun g hg => ⟨_, k.timersOf_expire hg, rfl⟩
  · exact fun g hg spawned =>
      ⟨_, _, k.timersOf_rise_of_spawned hg spawned, k.timersOf_expire hg, rfl, rfl⟩
  · exact fun g hg rising => k.timersOf_rise_of_rising hg rising
  · intro t ht _
    rw [timing]
    exact timer_released_of_run k₀ h ht (Nat.zero_le _)
  · exact k.length_timersOf_le

/-- Two hearts, of which one has been cancelled while it waited and its timers are left. -/
theorem booked_with_cancelled_heart :
    ∃ events s, (new single ⟨[0], 0⟩).run
        [.burst ⟨3.0, 4.0⟩ 0, .burst ⟨5.0, 6.0⟩ 7, .cancel 1, .advance 10000000] =
          .ok (events, s) ∧
      s.timersOf 0 .rise = [] ∧ s.timersOf 1 .rise = [⟨10000007, 2, 1, .rise⟩] ∧
      Booked (new single ⟨[0], 0⟩)
        [.burst ⟨3.0, 4.0⟩ 0, .burst ⟨5.0, 6.0⟩ 7, .cancel 1, .advance 10000000] s := by
  obtain ⟨⟨events, s⟩, h⟩ : ∃ r, (new single ⟨[0], 0⟩).run
      [.burst ⟨3.0, 4.0⟩ 0, .burst ⟨5.0, 6.0⟩ 7, .cancel 1, .advance 10000000] = .ok r := ⟨_, rfl⟩
  have left : ((new single ⟨[0], 0⟩).run
      [.burst ⟨3.0, 4.0⟩ 0, .burst ⟨5.0, 6.0⟩ 7, .cancel 1, .advance 10000000]).map
        (fun r => (r.2.timersOf 0 .rise, r.2.timersOf 1 .rise)) =
      .ok ([], [⟨10000007, 2, 1, .rise⟩]) := by
    decide
  rw [h] at left
  obtain ⟨first, second⟩ := Prod.mk.inj (Except.ok.inj left)
  exact ⟨events, s, h, first, second, booked_of_run h⟩

end Show

end HeartKeypad
