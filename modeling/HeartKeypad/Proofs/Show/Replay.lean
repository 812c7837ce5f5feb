import HeartKeypad.Proofs.Show.Lives

/-!
# Following a show by its reports

Whoever knows the live hearts before an advance and hears its reports knows the live hearts
afterwards: nothing happens to a heart that is not reported, and nothing is reported that does not
happen.

* `Show.Event.replay`, `Show.replay` — what a report, and a list of them, says of the live hearts.
* `Show.Underway` — the show at some moment of an advance, and what has been reported by then.
* `Show.Event.Fits` — the report is of something that can happen to the show as it stands.
* `Show.replay_of_advance` — replaying the reports of an advance gives the hearts that it leaves.

### What a report does not say

A rise is reported with the heart and its target, but without the instant.  That has to be found out
from the heart, as the instant at which it is to rise; and that it is the one at which it rose is
what `Show.Kept` says of the timer that raised it (`Show.Fires.live_eq`).
-/

namespace HeartKeypad

namespace Show

/-! ### Replaying reports -/

/-- **What a report says about the live hearts**: the one that rises does so at the instant at which
it is to, toward the target reported, and the one that has ended is gone. -/
def Event.replay (timing : Timing) (live : List Heart) : Event → List Heart
  | .rose id target => live.map fun h => if h.id = id then h.risen (h.riseAt timing) target else h
  | .expired heart => live.filter (·.id != heart.id)

/-- **The hearts that are live after some reports**, which are replayed in order. -/
def replay (timing : Timing) (events : List Event) (live : List Heart) : List Heart :=
  events.foldl (Event.replay timing) live

variable {s s' s₁ : Show} {events told rest : List Event} {t : Timer} {ts us : List Timer}
  {timing : Timing} {now : Int} {id : Nat} {r : Event}

theorem replay_cons (live : List Heart) :
    replay timing (r :: events) live = replay timing events (r.replay timing live) := rfl

theorem replay_append (live : List Heart) :
    replay timing (events ++ told) live = replay timing told (replay timing events live) :=
  List.foldl_append

/-- A report about one heart says nothing about another. -/
theorem Event.find?_replay (other : r.id ≠ id) (live : List Heart) :
    (r.replay timing live).find? (·.id == id) = live.find? (·.id == id) := by
  cases r with
  | rose k target =>
      have kept : ∀ h : Heart,
          (if h.id = k then h.risen (h.riseAt timing) target else h).id = h.id := by
        intro h
        split <;> rfl
      show (live.map _).find? _ = _
      rw [List.find?_map, Function.comp_def]
      simp only [kept]
      -- the heart that is found is not the one that rises
      cases found : live.find? (·.id == id) with
      | none => rfl
      | some h =>
          have same := @List.find?_some _ (fun g : Heart => g.id == id) _ _ found
          rw [beq_iff_eq] at same
          rw [Option.map_some, if_neg fun e => other (e.symm.trans same)]
  | expired heart =>
      show (live.filter _).find? _ = _
      rw [List.find?_filter]
      refine congrArg (List.find? · live) (funext fun h => ?_)
      by_cases same : h.id = id
      · have away : id ≠ heart.id := fun e => other e.symm
        simp [same, away]
      · simp [same]

/-- What no report is about stays as it was. -/
theorem find?_replay (silent : ∀ r ∈ events, r.id ≠ id) (live : List Heart) :
    (replay timing events live).find? (·.id == id) = live.find? (·.id == id) := by
  induction events generalizing live with
  | nil => rfl
  | cons r events ih =>
      obtain ⟨first, others⟩ := List.forall_mem_cons.1 silent
      rw [replay_cons, ih others, Event.find?_replay first]

/-! ### One timer -/

/-- **The hearts that a timer leaves are those of its report.** -/
theorem Fires.live_eq (k : Kept (t :: ts) s) (hf : Fires t s events s') :
    s'.live = replay s.effects.timing events s.live := by
  cases hf with
  | @rises heart target w effect found waits =>
      obtain ⟨mem, same⟩ := mem_of_get? found
      obtain ⟨-, timer⟩ := k.eq_riseTimer List.mem_cons_self effect mem same.symm
      have due : t.due = heart.riseAt s.effects.timing := by rw [timer]; rfl
      refine List.map_congr_left fun h hh => ?_
      show (if h.id == heart.id then heart.risen t.due target else h) = _
      by_cases own : h.id = heart.id
      · rw [if_pos (beq_iff_eq.2 own), if_pos (own.trans same), k.eq_of_id hh mem own, due]
      · have other : h.id ≠ t.heart := fun e => own (e.trans same.symm)
        rw [if_neg fun e => own (beq_iff_eq.1 e), if_neg other]
  | @ends heart effect found =>
      obtain ⟨-, same⟩ := mem_of_get? found
      rw [← same]
      rfl
  | late effect risen => rfl
  | gone effect absent => rfl

/-- Timers that fire one after the other leave the hearts of their reports. -/
theorem live_of_fireAll (k : Kept (ts ++ us) s) (hf : fireAll ts s = .ok (events, s')) :
    s'.live = replay s.effects.timing events s.live := by
  induction ts generalizing s events with
  | nil =>
      cases hf
      rfl
  | cons t ts ih =>
      obtain ⟨first, s₁, more, ht, hts, rfl⟩ := fireAll_cons.1 hf
      have fires := fires_of_fire ht
      rw [ih (k.fire fires) hts, fires.live_eq k, fires.sameFrame.effects, replay_append]

/-! ### In the middle of an advance -/

/-- **A show in the middle of an advance**: of the timers that are due some have fired, and have
reported what they did. -/
def Underway (now : Int) (s : Show) (told : List Event) (s₁ : Show) : Prop :=
  ∃ fired left, s.agenda.due now = fired ++ left ∧
    fireAll fired { s with agenda := s.agenda.after now } = .ok (told, s₁)

/-- **The report is of something that can happen to the show**: a heart that waits rises, or a live
one ends, and is reported as it stands but for its phase. -/
def Event.Fits (s : Show) : Event → Prop
  | .rose id _ => ∃ heart, s.get? id = some heart ∧ heart.phase = .spawned
  | .expired ended => ∃ heart, s.get? ended.id = some heart ∧
      ended = { heart with phase := .expired }

/-- In the end all of them have fired. -/
theorem underway_advance (h : s.advance now = .ok (events, s')) : Underway now s events s' :=
  ⟨s.agenda.due now, [], (List.append_nil _).symm, h⟩

theorem Underway.live_eq (k : Steady s) (u : Underway now s told s₁) :
    s₁.live = replay s.effects.timing told s.live := by
  obtain ⟨fired, left, split, h⟩ := u
  have kept := k.kept_due now
  rw [split, List.append_assoc] at kept
  have live := live_of_fireAll kept h
  exact live

/-- A timer makes one report at most, and that fits the show that the timer finds. -/
theorem Fires.fits (hf : Fires t s events s') : events = [] ∨ ∃ r, events = [r] ∧ r.Fits s := by
  cases hf with
  | @rises heart target w effect found waits =>
      exact Or.inr ⟨_, rfl, heart, found, waits⟩
  | @ends heart effect found =>
      refine Or.inr ⟨_, rfl, heart, ?_, rfl⟩
      show s.get? heart.id = some heart
      rw [(mem_of_get? found).2]
      exact found
  | late effect risen => exact Or.inl rfl
  | gone effect absent => exact Or.inl rfl

/-- Every report is made by a timer that found the show so that the report fits. -/
theorem exists_fits_of_fireAll (hf : fireAll ts s = .ok (told ++ r :: rest, s')) :
    ∃ fired left s₁, ts = fired ++ left ∧ fireAll fired s = .ok (told, s₁) ∧ r.Fits s₁ := by
  induction ts generalizing s told with
  | nil =>
      obtain ⟨nothing, -⟩ := Prod.mk.inj (Except.ok.inj hf)
      simp at nothing
  | cons t ts ih =>
      obtain ⟨first, s₂, more, ht, hts, split⟩ := fireAll_cons.1 hf
      have later : ∀ {told'}, told = first ++ told' → more = told' ++ r :: rest →
          ∃ fired left s₁, t :: ts = fired ++ left ∧ fireAll fired s = .ok (told, s₁) ∧
            r.Fits s₁ := by
        rintro told' rfl rfl
        obtain ⟨fired, left, s₁, rfl, hfired, fits⟩ := ih hts
        exact ⟨t :: fired, left, s₁, rfl, fireAll_cons.2 ⟨first, s₂, told', ht, hfired, rfl⟩, fits⟩
      rcases (fires_of_fire ht).fits with rfl | ⟨r', rfl, fits⟩
      · exact later rfl split.symm
      · cases told with
        | nil =>
            -- the first report is the one in question
            obtain ⟨rfl, -⟩ := List.cons.inj split
            exact ⟨[], t :: ts, s, rfl, rfl, fits⟩
        | cons r₀ told =>
            obtain ⟨rfl, behind⟩ := List.cons.inj split
            exact later rfl behind.symm

theorem exists_underway (h : s.advance now = .ok (told ++ r :: rest, s')) :
    ∃ s₁, Underway now s told s₁ ∧ r.Fits s₁ := by
  obtain ⟨fired, left, s₁, split, hfired, fits⟩ := exists_fits_of_fireAll h
  exact ⟨s₁, ⟨fired, left, split, hfired⟩, fits⟩

/-! ### A whole advance -/

/-- **The reports of an advance say all that it did.**  Behind any history and at any instant, if
the advance succeeds: replaying its reports on the hearts that were live before gives those that are
live afterwards, and replaying the first of them those that were live in between; a heart that no
report is about is as it was, live or not; and when a report was made, it was of a heart that waited
and rose, or of a live one that ended and is reported as it stood, but for its phase. -/
theorem replay_of_advance {e : Effects} {source : WordSource} {history : List Action}
    {log : List Event} (reached : (new e source).run history = .ok (log, s))
    (advanced : s.advance now = .ok (events, s')) :
    s'.snapshot = replay e.timing events s.snapshot ∧
    (∀ id, (∀ r ∈ events, r.id ≠ id) → s'.get? id = s.get? id) ∧
    (∀ told s₁, Underway now s told s₁ → s₁.snapshot = replay e.timing told s.snapshot) ∧
    ∀ told r rest, events = told ++ r :: rest → ∃ s₁, Underway now s told s₁ ∧ r.Fits s₁ := by
  have k : Steady s := (steady_new e source).run reached
  have effects : s.effects = e := (Carried.run (steady_new e source) reached).effects
  have live {told s₁} (u : Underway now s told s₁) :
      s₁.snapshot = replay e.timing told s.snapshot := by
    rw [← effects]
    exact u.live_eq k
  have after := live (underway_advance advanced)
  refine ⟨after, fun id silent => ?_, fun told s₁ => live, ?_⟩
  · show s'.live.find? _ = s.live.find? _
    rw [show s'.live = replay e.timing events s.live from after, find?_replay silent]
  · rintro told r rest rfl
    exact exists_underway advanced

/-- Three hearts, of which the second has been cancelled: the first rises and ends in the same
advance, the third rises, and the second is not heard of. -/
theorem replay_of_three_hearts :
    ∃ log s events s', (new single ⟨[0], 0⟩).run [.burst ⟨3.0, 4.0⟩ 0, .burst ⟨5.0, 6.0⟩ 5,
          .burst ⟨7.0, 8.0⟩ 1000000000, .cancel 1] = .ok (log, s) ∧
      s.advance 2500000000 = .ok (events, s') ∧ events.map Event.id = [0, 2, 0] ∧
      s'.snapshot.map (fun h => (h.id, h.phase)) = [(2, .rising)] ∧
      s'.snapshot = replay single.timing events s.snapshot ∧ s'.get? 1 = s.get? 1 := by
  obtain ⟨log, s, reached, events, s', advanced, about, left⟩ : ∃ log s,
      (new single ⟨[0], 0⟩).run [.burst ⟨3.0, 4.0⟩ 0, .burst ⟨5.0, 6.0⟩ 5,
        .burst ⟨7.0, 8.0⟩ 1000000000, .cancel 1] = .ok (log, s) ∧
      ∃ events s', s.advance 2500000000 = .ok (events, s') ∧ events.map Event.id = [0, 2, 0] ∧
        s'.snapshot.map (fun h => (h.id, h.phase)) = [(2, .rising)] :=
    ⟨_, _, rfl, _, _, rfl, rfl, rfl⟩
  obtain ⟨after, silent, -⟩ := replay_of_advance reached advanced
  have quiet : ∀ r ∈ events, r.id ≠ 1 := by
    intro r hr same
    have among : r.id ∈ events.map Event.id := List.mem_map_of_mem hr
    rw [about, same] at among
    simp at among
  exact ⟨log, s, events, s', reached, advanced, about, left, after, silent 1 quiet⟩

end Show

end HeartKeypad
