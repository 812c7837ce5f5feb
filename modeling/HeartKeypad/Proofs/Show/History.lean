import HeartKeypad.Show.Basic
import HeartKeypad.Proofs.Except
import Mathlib.Data.List.Basic

/-!
# Histories of a show

A history is a list of actions: bursts, advances and cancellations, at any instants and in
any order.  `Show.run` carries it out and collects what the advances report; it stops at
the first fault, and then there is no show to speak of.

* `Show.Action` — what a show can be asked to do.
* `Show.act`, `Show.run` — one action, and a history.

### What an action can do

The operations of a show are computations, and every invariant of it asks the same
question of them: what does the show look like if this one succeeds?  The answers are
given once.  `Show.release_eq_ok` and `Show.releaseMany_of_burst` say it of bursts, and the
relation `Show.Fires` says it of timers: a timer lets its heart rise, ends it, or finds
nothing to do.
-/

namespace HeartKeypad

/-- The nanoseconds from the birth of a heart to its rise. -/
def Timing.riseSpan (t : Timing) : Int := t.riseDelay.toInt64.toInt * 1000000

/-- The nanoseconds from the birth of a heart to its end. -/
def Timing.lifeSpan (t : Timing) : Int := t.lifetime.toInt64.toInt * 1000000

theorem Span.ofWord_eq_ok {w : UInt64} {n : Int} (h : Span.ofWord w = .ok n) :
    n = w.toInt64.toInt := by
  unfold Span.ofWord at h
  dsimp only at h
  split at h
  · cases h
  · exact (Except.ok.inj h).symm

theorem Instant.later_eq_ok {t n r : Int} (h : Instant.later t n = .ok r) :
    r = t + n * 1000000 := by
  unfold Instant.later Instant.after at h
  split at h
  · exact (Except.ok.inj h).symm
  · cases h

namespace Heart

/-- When a heart is to rise. -/
def riseAt (timing : Timing) (h : Heart) : Int := h.createdAt + timing.riseSpan

/-- When a heart is to end. -/
def endAt (timing : Timing) (h : Heart) : Int := h.createdAt + timing.lifeSpan

/-- A heart that waits where it was born. -/
structure Waiting (h : Heart) : Prop where
  phase : h.phase = .spawned
  riseStartedAt : h.riseStartedAt = none
  target : h.target = h.position

/-- A heart that started to rise when it was to. -/
structure Rising (timing : Timing) (h : Heart) : Prop where
  phase : h.phase = .rising
  riseStartedAt : h.riseStartedAt = some (h.riseAt timing)

/-- The heart when it starts to rise to a target. -/
def risen (h : Heart) (due : Int) (target : Point) : Heart :=
  { h with target, phase := .rising, riseStartedAt := some due }

end Heart

namespace Show

/-- What a show can be asked to do. -/
inductive Action where
  | burst (origin : Point) (now : Int)
  | advance (now : Int)
  | cancel (id : Nat)
deriving DecidableEq

/-- The show after an action, and what it reports. -/
def act : Action → Show → Except Fault (List Event × Show)
  | .burst origin now, s => do
    let s ← s.burst origin now
    .ok ([], s)
  | .advance now, s => s.advance now
  | .cancel id, s => .ok ([], (s.cancel id).2)

/-- The show after a history, and all that it reports. -/
def run : List Action → Show → Except Fault (List Event × Show)
  | [], s => .ok ([], s)
  | a :: as, s => do
    let (events, s) ← s.act a
    let (more, s) ← run as s
    .ok (events ++ more, s)

variable {s s' : Show} {events : List Event}

theorem act_burst {origin : Point} {now : Int} :
    s.act (.burst origin now) = .ok (events, s') ↔ s.burst origin now = .ok s' ∧ events = [] := by
  rw [act, bind_eq_ok_iff]
  constructor
  · rintro ⟨s₁, h, e⟩
    cases e
    exact ⟨h, rfl⟩
  · rintro ⟨h, rfl⟩
    exact ⟨s', h, rfl⟩

theorem run_cons {a : Action} {as : List Action} :
    run (a :: as) s = .ok (events, s') ↔ ∃ first s₁ more,
      s.act a = .ok (first, s₁) ∧ run as s₁ = .ok (more, s') ∧ events = first ++ more := by
  rw [run, bind_eq_ok_iff]
  constructor
  · rintro ⟨⟨first, s₁⟩, ha, h⟩
    obtain ⟨⟨more, s₂⟩, has, e⟩ := bind_eq_ok_iff.1 h
    cases e
    exact ⟨first, s₁, more, ha, has, rfl⟩
  · rintro ⟨first, s₁, more, ha, has, rfl⟩
    exact ⟨(first, s₁), ha, bind_eq_ok_iff.2 ⟨(more, s'), has, rfl⟩⟩

/-- A history can be cut in two at any point. -/
theorem run_append {as bs : List Action} :
    run (as ++ bs) s = .ok (events, s') ↔ ∃ first s₁ more,
      run as s = .ok (first, s₁) ∧ run bs s₁ = .ok (more, s') ∧ events = first ++ more := by
  induction as generalizing s events with
  | nil =>
      constructor
      · intro h
        exact ⟨[], s, events, rfl, h, rfl⟩
      · rintro ⟨first, s₁, more, ha, hb, rfl⟩
        cases ha
        exact hb
  | cons a as ih =>
      constructor
      · intro h
        rw [List.cons_append] at h
        obtain ⟨e₁, s₁, e₂, ha, hrest, rfl⟩ := run_cons.1 h
        obtain ⟨e₃, s₂, e₄, has, hbs, rfl⟩ := ih.1 hrest
        exact ⟨e₁ ++ e₃, s₂, e₄, run_cons.2 ⟨e₁, s₁, e₃, ha, has, rfl⟩, hbs,
          (List.append_assoc ..).symm⟩
      · rintro ⟨first, s₂, e₄, h, hbs, rfl⟩
        obtain ⟨e₁, s₁, e₃, ha, has, rfl⟩ := run_cons.1 h
        exact run_cons.2 ⟨e₁, s₁, e₃ ++ e₄, ha, ih.2 ⟨e₃, s₂, e₄, has, hbs, rfl⟩,
          List.append_assoc ..⟩

/-! ### Bursts -/

/-- Releasing a heart puts a waiting one at the end, and its two timers on the agenda. -/
theorem release_eq_ok {origin : Point} {now riseAt endAt : Int}
    (h : s.release origin now riseAt endAt = .ok s') :
    ∃ heart w, heart.id = s.nextId ∧ heart.createdAt = now ∧ heart.Waiting ∧
      s' = { s with
        source := w
        live := s.live ++ [heart]
        agenda := (s.agenda.insert ⟨riseAt, s.nextSeq, s.nextId, .rise⟩).insert
          ⟨endAt, s.nextSeq + 1, s.nextId, .expire⟩
        nextSeq := s.nextSeq + 2
        nextId := s.nextId + 1 } := by
  unfold release at h
  obtain ⟨⟨position, w₁⟩, -, h⟩ := bind_eq_ok_iff.1 h
  obtain ⟨⟨size, w₂⟩, -, h⟩ := bind_eq_ok_iff.1 h
  obtain rfl := Except.ok.inj h
  exact ⟨_, _, rfl, rfl, ⟨rfl, rfl, rfl⟩, rfl⟩

/-- A burst releases as many hearts as the settings say, with timers at the instants that
they say. -/
theorem releaseMany_of_burst {origin : Point} {now : Int} (h : s.burst origin now = .ok s') :
    s.releaseMany origin now (now + s.effects.timing.riseSpan)
      (now + s.effects.timing.lifeSpan) s.effects.burst.count.toNat = .ok s' := by
  unfold burst at h
  obtain ⟨riseDelay, hrise, h⟩ := bind_eq_ok_iff.1 h
  obtain ⟨riseAt, hriseAt, h⟩ := bind_eq_ok_iff.1 h
  obtain ⟨lifetime, hlife, h⟩ := bind_eq_ok_iff.1 h
  obtain ⟨endAt, hendAt, h⟩ := bind_eq_ok_iff.1 h
  obtain rfl := Span.ofWord_eq_ok hrise
  obtain rfl := Span.ofWord_eq_ok hlife
  obtain rfl := Instant.later_eq_ok hriseAt
  obtain rfl := Instant.later_eq_ok hendAt
  exact h

/-! ### Timers -/

section Timers

variable {t : Timer}

/-- The show with another source. -/
def withSource (w : WordSource) (s : Show) : Show := { s with source := w }

/-- The heart that a timer would raise waits, or it has risen before or is not there. -/
theorem waiting_or_late (s : Show) (id : Nat) :
    (∃ heart, s.get? id = some heart ∧ heart.phase = .spawned) ∨
      ∀ heart, s.get? id = some heart → heart.phase ≠ .spawned := by
  by_cases waits : ∃ heart, s.get? id = some heart ∧ heart.phase = .spawned
  · exact Or.inl waits
  · exact Or.inr fun heart found spawned => waits ⟨heart, found, spawned⟩

theorem fire_of_waiting (effect : t.effect = .rise) {heart : Heart}
    (found : s.get? t.heart = some heart) (waits : heart.phase = .spawned) :
    s.fire t = drawPoint heart.position.x s.effects.rise.topOffset s.effects.rise.jitterX
      s.effects.rise.jitterY s.source >>= fun p => .ok ([.rose t.heart p.1],
        (s.replace (heart.risen t.due p.1)).withSource p.2) := by
  unfold fire
  rw [effect]
  show s.raise t.heart t.due = _
  unfold raise
  simp only [found, waits, if_true]
  rfl

theorem fire_of_late (effect : t.effect = .rise)
    (late : ∀ heart, s.get? t.heart = some heart → heart.phase ≠ .spawned) :
    s.fire t = .ok ([], s) := by
  unfold fire
  rw [effect]
  show s.raise t.heart t.due = _
  unfold raise
  cases found : s.get? t.heart with
  | none => rfl
  | some heart => exact if_neg (late heart found)

theorem fire_of_live (effect : t.effect = .expire) {heart : Heart}
    (found : s.get? t.heart = some heart) :
    s.fire t = .ok ([.expired { heart with phase := .expired }], s.remove t.heart) := by
  simp [fire, effect, finish, found]

theorem fire_of_gone (gone : s.get? t.heart = none) : s.fire t = .ok ([], s) := by
  cases effect : t.effect with
  | rise =>
      refine fire_of_late effect fun heart found => ?_
      rw [gone] at found
      cases found
  | expire => simp [fire, effect, finish, gone]

/-- **What firing a timer can do**: the reports and the show it leads to. -/
inductive Fires (t : Timer) (s : Show) : List Event → Show → Prop
  /-- The heart waits, and rises. -/
  | rises {heart : Heart} {target : Point} {w : WordSource} : t.effect = .rise →
      s.get? t.heart = some heart → heart.phase = .spawned →
      Fires t s [.rose t.heart target]
        { s.replace (heart.risen t.due target) with source := w }
  /-- The heart is live, and ends. -/
  | ends {heart : Heart} : t.effect = .expire → s.get? t.heart = some heart →
      Fires t s [.expired { heart with phase := .expired }] (s.remove t.heart)
  /-- The heart is not there, or has risen before. -/
  | late : t.effect = .rise →
      (∀ heart, s.get? t.heart = some heart → heart.phase ≠ .spawned) → Fires t s [] s
  /-- The heart is not there. -/
  | gone : t.effect = .expire → s.get? t.heart = none → Fires t s [] s

theorem fires_of_fire (h : s.fire t = .ok (events, s')) : Fires t s events s' := by
  cases effect : t.effect with
  | rise =>
      rcases s.waiting_or_late t.heart with ⟨heart, found, waits⟩ | late
      · rw [fire_of_waiting effect found waits] at h
        obtain ⟨drawn, -, h⟩ := bind_eq_ok_iff.1 h
        cases h
        exact Fires.rises effect found waits
      · rw [fire_of_late effect late] at h
        cases h
        exact Fires.late effect late
  | expire =>
      cases found : s.get? t.heart with
      | none =>
          rw [fire_of_gone found] at h
          cases h
          exact Fires.gone effect found
      | some heart =>
          rw [fire_of_live effect found] at h
          cases h
          exact Fires.ends effect found

end Timers

theorem fireAll_cons {t : Timer} {ts : List Timer} :
    fireAll (t :: ts) s = .ok (events, s') ↔ ∃ first s₁ more,
      s.fire t = .ok (first, s₁) ∧ fireAll ts s₁ = .ok (more, s') ∧
        events = first ++ more := by
  rw [fireAll, bind_eq_ok_iff]
  constructor
  · rintro ⟨⟨first, s₁⟩, ht, h⟩
    obtain ⟨⟨more, s₂⟩, hts, e⟩ := bind_eq_ok_iff.1 h
    cases e
    exact ⟨first, s₁, more, ht, hts, rfl⟩
  · rintro ⟨first, s₁, more, ht, hts, rfl⟩
    exact ⟨(first, s₁), ht, bind_eq_ok_iff.2 ⟨(more, s'), hts, rfl⟩⟩

/-! ### Live hearts -/

theorem mem_remove {id : Nat} {h : Heart} :
    h ∈ (s.remove id).live ↔ h ∈ s.live ∧ h.id ≠ id := by
  rw [remove, List.mem_filter, bne_iff_ne]

theorem mem_replace {heart h : Heart} :
    h ∈ (s.replace heart).live ↔
      (h ∈ s.live ∧ h.id ≠ heart.id) ∨ (h = heart ∧ ∃ g ∈ s.live, g.id = heart.id) := by
  rw [replace, List.mem_map]
  constructor
  · rintro ⟨g, hg, rfl⟩
    split
    · rename_i same
      exact Or.inr ⟨rfl, g, hg, beq_iff_eq.1 same⟩
    · rename_i other
      exact Or.inl ⟨hg, fun e => other (beq_iff_eq.2 e)⟩
  · rintro (⟨hg, other⟩ | ⟨rfl, g, hg, same⟩)
    · exact ⟨h, hg, if_neg fun e => other (beq_iff_eq.1 e)⟩
    · exact ⟨g, hg, if_pos (beq_iff_eq.2 same)⟩

/-- Replacing hearts leaves their numbers. -/
theorem ids_replace (heart : Heart) :
    (s.replace heart).live.map (·.id) = s.live.map (·.id) := by
  rw [replace, List.map_map]
  refine List.map_congr_left fun h _ => ?_
  rw [Function.comp_apply]
  split
  · rename_i same
    exact (beq_iff_eq.1 same).symm
  · rfl

/-- The heart with a number is a live one that has it. -/
theorem mem_of_get? {id : Nat} {h : Heart} (hg : s.get? id = some h) : h ∈ s.live ∧ h.id = id := by
  rw [get?] at hg
  have same := @List.find?_some _ (fun g : Heart => g.id == id) _ _ hg
  exact ⟨List.mem_of_find?_eq_some hg, beq_iff_eq.1 same⟩

theorem get?_eq_none_iff {id : Nat} : s.get? id = none ↔ ∀ h ∈ s.live, h.id ≠ id := by
  rw [get?, List.find?_eq_none]
  exact forall₂_congr fun h _ => by rw [beq_iff_eq]

end Show

end HeartKeypad
