import HeartKeypad.Proofs.Settings.Effects
import HeartKeypad.Proofs.Show.Lives

/-!
# What a show reports

Everything that the advances of a history report makes up one log.  Under valid settings the
log tells the life of each heart in order: it rises once, it ends once, it ends where it was
announced to go, and once it has ended or been cancelled nothing more is heard of it.

* `Show.Event.Follows` — what two reports about one heart have to be.
* `Show.Chronicle` — how a log and the live hearts hang together.
* `Show.Fired` — the timer that a report comes from.

### Where the settings come in

A heart that ends has risen, for two reasons that have to meet: its rise is due before its
end (`Effects.Valid.riseSpan_lt_lifeSpan`), and timers fire in the order in which they are
due.  So when the timer that ends a heart is the next to fire, the one that raises it is no
longer pending (`Show.Kept.rising_of_end`).  Nothing else in the log depends on the settings.
-/

namespace HeartKeypad

/-- A timer fires before another: it is due earlier, or was queued earlier and is due at the
same instant. -/
def Timer.Before (a b : Timer) : Prop := a.due < b.due ∨ a.due = b.due ∧ a.seq < b.seq

theorem Timer.NotAfter.before {a b : Timer} (h : a.NotAfter b) (distinct : a.seq ≠ b.seq) :
    a.Before b := by
  unfold NotAfter at h
  unfold Before
  omega

namespace Heart.SameBirth

variable {g h : Heart}

theorem riseTimer (e : g.SameBirth h) (timing : Timing) :
    h.riseTimer timing = g.riseTimer timing := by
  rw [Heart.riseTimer, Heart.riseTimer, e.riseAt, e.id]

theorem endTimer (e : g.SameBirth h) (timing : Timing) :
    h.endTimer timing = g.endTimer timing := by
  rw [Heart.endTimer, Heart.endTimer, e.endAt, e.id]

end Heart.SameBirth

namespace Show

variable {s s' : Show} {events log : List Event} {t : Timer} {ts rest : List Timer}

/-! ### Logs -/

namespace Event

/-- The report is that a heart rises. -/
def isRise : Event → Bool
  | .rose _ _ => true
  | .expired _ => false

/-- **What two reports about one heart have to be**: its rise, and then its end at the
target that was announced. -/
def Follows (earlier later : Event) : Prop :=
  earlier.id = later.id →
    ∃ heart, earlier = .rose heart.id heart.target ∧ later = .expired heart

theorem Follows.of_ne {e f : Event} (h : e.id ≠ f.id) : Follows e f :=
  fun same => absurd same h

/-- Nothing follows the end of a heart that is about the same heart. -/
theorem Follows.id_ne_of_end {heart : Heart} {e : Event} (h : Follows (.expired heart) e) :
    e.id ≠ heart.id := by
  intro same
  obtain ⟨other, first, -⟩ := h same.symm
  cases first

/-- Of two rises, or of two ends, each is about a heart of its own. -/
theorem Follows.id_ne_of_isRise {e f : Event} (h : Follows e f) (alike : e.isRise = f.isRise) :
    e.id ≠ f.id := by
  intro same
  obtain ⟨heart, rfl, rfl⟩ := h same
  cases alike

end Event

/-- **How a log and the live hearts hang together.** -/
structure Chronicle (log : List Event) (s : Show) : Prop where
  order : log.Pairwise Event.Follows
  /-- What has ended had risen, when it was to, and was announced to go where it went. -/
  ended : ∀ heart, .expired heart ∈ log → .rose heart.id heart.target ∈ log ∧
    heart.phase = .expired ∧ heart.riseStartedAt = some (heart.riseAt s.effects.timing)
  /-- Nothing is heard of a heart that waits. -/
  unheard : ∀ h ∈ s.live, h.phase = .spawned → ∀ e ∈ log, e.id ≠ h.id
  /-- Of a heart that rises nothing is heard but that. -/
  announced : ∀ h ∈ s.live, h.phase = .rising → .rose h.id h.target ∈ log ∧
    ∀ e ∈ log, e.id = h.id → e = .rose h.id h.target
  /-- All reports are about hearts that were born. -/
  past : ∀ e ∈ log, e.id < s.nextId

theorem chronicle_new (effects : Effects) (source : WordSource) :
    Chronicle [] (new effects source) where
  order := List.Pairwise.nil
  ended := fun _ h => nomatch h
  unheard := fun _ h => nomatch h
  announced := fun _ h => nomatch h
  past := fun _ h => nomatch h

/-! ### One timer -/

/-- If a heart's end is the next timer to fire, the heart has risen. -/
theorem Kept.rising_of_end (k : Kept (t :: ts) s) (sorted : (t :: ts).Pairwise Timer.NotAfter)
    (spans : s.effects.timing.riseSpan < s.effects.timing.lifeSpan) (effect : t.effect = .expire)
    {heart : Heart} (mem : heart ∈ s.live) (same : t.heart = heart.id) :
    heart.Rising s.effects.timing := by
  obtain rfl := k.eq_endTimer List.mem_cons_self effect mem same
  rcases k.phase heart mem with ⟨-, pending⟩ | ⟨rises, -⟩
  · -- its rise would be pending behind its end, and is due earlier
    rcases List.mem_cons.1 pending with first | behind
    · cases congrArg Timer.effect first
    · have late := ((List.pairwise_cons.1 sorted).1 _ behind).due_le
      simp only [Heart.riseTimer, Heart.endTimer, Heart.riseAt, Heart.endAt] at late
      omega
  · exact rises

namespace Chronicle

/-- A heart that waits starts to rise. -/
theorem rise (c : Chronicle log s) (k : Kept (t :: ts) s) {heart : Heart}
    (mem : heart ∈ s.live) (same : heart.id = t.heart) (waits : heart.phase = .spawned)
    (target : Point) (w : WordSource) :
    Chronicle (log ++ [.rose t.heart target])
      { s.replace (heart.risen t.due target) with source := w } := by
  have silent : ∀ e ∈ log, e.id ≠ heart.id := c.unheard heart mem waits
  have moved : ∀ {h}, h ∈ (s.replace (heart.risen t.due target)).live →
      (h ∈ s.live ∧ h.id ≠ heart.id) ∨ h = heart.risen t.due target := by
    intro h hh
    exact (mem_replace.1 hh).imp id And.left
  have whole : ∀ {e}, e ∈ log ++ [Event.rose t.heart target] →
      e ∈ log ∨ e = .rose heart.id target := by
    intro e he
    rw [List.mem_append, List.mem_singleton] at he
    rwa [same]
  constructor
  · refine List.pairwise_append.2 ⟨c.order, List.pairwise_singleton _ _, ?_⟩
    intro e he f hf
    rw [List.mem_singleton.1 hf]
    refine Event.Follows.of_ne ?_
    show e.id ≠ t.heart
    rw [← same]
    exact silent e he
  · intro g hg
    rcases whole hg with old | new
    · exact ⟨List.mem_append_left _ (c.ended g old).1, (c.ended g old).2⟩
    · cases new
  · intro h hh spawned e he
    rcases moved hh with ⟨live, other⟩ | rfl
    · rcases whole he with old | rfl
      · exact c.unheard h live spawned e old
      · exact other.symm
    · cases spawned
  · intro h hh rising
    rcases moved hh with ⟨live, other⟩ | rfl
    · obtain ⟨told, only⟩ := c.announced h live rising
      refine ⟨List.mem_append_left _ told, fun e he about => ?_⟩
      rcases whole he with old | rfl
      · exact only e old about
      · exact absurd about.symm other
    · refine ⟨List.mem_append_right _ ?_, fun e he about => ?_⟩
      · rw [← same]
        exact List.mem_singleton_self _
      · rcases whole he with old | rfl
        · exact absurd about (silent e old)
        · rfl
  · intro e he
    rcases whole he with old | rfl
    · exact c.past e old
    · exact k.born heart mem

/-- A heart that rises ends. -/
theorem finish (c : Chronicle log s) (k : Kept (t :: ts) s) {heart : Heart}
    (mem : heart ∈ s.live) (same : heart.id = t.heart) (rises : heart.Rising s.effects.timing) :
    Chronicle (log ++ [.expired { heart with phase := .expired }]) (s.remove t.heart) := by
  obtain ⟨told, only⟩ := c.announced heart mem rises.phase
  have whole : ∀ {e}, e ∈ log ++ [Event.expired { heart with phase := .expired }] →
      e ∈ log ∨ e = .expired { heart with phase := .expired } := by
    intro e he
    rwa [List.mem_append, List.mem_singleton] at he
  have others : ∀ {h}, h ∈ (s.remove t.heart).live → h ∈ s.live ∧ h.id ≠ heart.id := by
    intro h hh
    rw [same]
    exact mem_remove.1 hh
  constructor
  · refine List.pairwise_append.2 ⟨c.order, List.pairwise_singleton _ _, ?_⟩
    intro e he f hf about
    rw [List.mem_singleton.1 hf] at about ⊢
    exact ⟨{ heart with phase := .expired }, only e he about, rfl⟩
  · intro g hg
    rcases whole hg with old | new
    · exact ⟨List.mem_append_left _ (c.ended g old).1, (c.ended g old).2⟩
    · cases new
      exact ⟨List.mem_append_left _ told, rfl, rises.riseStartedAt⟩
  · intro h hh spawned e he
    obtain ⟨live, other⟩ := others hh
    rcases whole he with old | rfl
    · exact c.unheard h live spawned e old
    · exact other.symm
  · intro h hh rising
    obtain ⟨live, other⟩ := others hh
    obtain ⟨told, only⟩ := c.announced h live rising
    refine ⟨List.mem_append_left _ told, fun e he about => ?_⟩
    rcases whole he with old | rfl
    · exact only e old about
    · exact absurd about.symm other
  · intro e he
    rcases whole he with old | rfl
    · exact c.past e old
    · exact k.born heart mem

/-- **Firing a timer adds to the log what it should.** -/
theorem fire (c : Chronicle log s) (k : Kept (t :: ts) s)
    (sorted : (t :: ts).Pairwise Timer.NotAfter)
    (spans : s.effects.timing.riseSpan < s.effects.timing.lifeSpan)
    (hf : Fires t s events s') : Chronicle (log ++ events) s' := by
  cases hf with
  | rises effect found waits =>
      obtain ⟨mem, same⟩ := mem_of_get? found
      exact c.rise k mem same waits _ _
  | ends effect found =>
      obtain ⟨mem, same⟩ := mem_of_get? found
      exact c.finish k mem same (k.rising_of_end sorted spans effect mem same.symm)
  | late effect risen => simpa using c
  | gone effect absent => simpa using c

/-- Firing timers one after the other does. -/
theorem fireAll (c : Chronicle log s) (k : Kept (ts ++ rest) s)
    (sorted : (ts ++ rest).Pairwise Timer.NotAfter)
    (spans : s.effects.timing.riseSpan < s.effects.timing.lifeSpan)
    (hf : Show.fireAll ts s = .ok (events, s')) : Chronicle (log ++ events) s' := by
  induction ts generalizing s log events with
  | nil =>
      cases hf
      simpa using c
  | cons t ts ih =>
      obtain ⟨first, s₁, more, ht, hts, rfl⟩ := fireAll_cons.1 hf
      have fires := fires_of_fire ht
      have spans₁ : s₁.effects.timing.riseSpan < s₁.effects.timing.lifeSpan := by
        rw [fires.sameFrame.effects]
        exact spans
      rw [← List.append_assoc]
      exact ih (c.fire k sorted spans fires) (k.fire fires) (List.pairwise_cons.1 sorted).2 spans₁
        hts

/-! ### Any history -/

theorem advance (c : Chronicle log s) (k : Steady s)
    (spans : s.effects.timing.riseSpan < s.effects.timing.lifeSpan) {now : Int}
    (h : s.advance now = .ok (events, s')) : Chronicle (log ++ events) s' := by
  have same : Chronicle log { s with agenda := s.agenda.after now } := { c with }
  refine same.fireAll (k.kept_due now) ?_ spans h
  rw [Agenda.due_append_after]
  exact s.agenda.sorted

/-- Hearts that are born have not been heard of. -/
theorem bear (c : Chronicle log s) {now : Int} {born : List Heart} (b : Bears now born s s') :
    Chronicle log s' where
  order := c.order
  ended := by
    rw [b.effects]
    exact c.ended
  unheard := by
    intro h hh spawned e he
    rw [b.live] at hh
    rcases List.mem_append.1 hh with old | new
    · exact c.unheard h old spawned e he
    · have earlier := c.past e he
      have later := b.fresh h new
      omega
  announced := by
    intro h hh rising
    rw [b.live] at hh
    rcases List.mem_append.1 hh with old | new
    · exact c.announced h old rising
    · rw [(b.waiting h new).phase] at rising
      cases rising
  past := by
    intro e he
    have earlier := c.past e he
    rw [b.nextId]
    omega

theorem cancel (c : Chronicle log s) (id : Nat) : Chronicle log (s.cancel id).2 where
  order := c.order
  ended := c.ended
  unheard := fun h hh => c.unheard h (mem_remove.1 hh).1
  announced := fun h hh => c.announced h (mem_remove.1 hh).1
  past := c.past

theorem act (c : Chronicle log s) (k : Steady s)
    (spans : s.effects.timing.riseSpan < s.effects.timing.lifeSpan) {a : Action}
    (h : s.act a = .ok (events, s')) : Chronicle (log ++ events) s' := by
  cases a with
  | burst origin now =>
      obtain ⟨hburst, rfl⟩ := act_burst.1 h
      obtain ⟨born, -, bears⟩ := bears_of_burst hburst
      simpa using c.bear bears
  | advance now => exact c.advance k spans h
  | cancel id =>
      cases h
      simpa using c.cancel id

/-- **A history adds to the log what it should.** -/
theorem run (c : Chronicle log s) (k : Steady s)
    (spans : s.effects.timing.riseSpan < s.effects.timing.lifeSpan) {history : List Action}
    (h : s.run history = .ok (events, s')) : Chronicle (log ++ events) s' := by
  induction history generalizing s log events with
  | nil =>
      cases h
      simpa using c
  | cons a as ih =>
      obtain ⟨first, s₁, more, ha, has, rfl⟩ := run_cons.1 h
      have spans₁ : s₁.effects.timing.riseSpan < s₁.effects.timing.lifeSpan := by
        rw [(Carried.act k ha).effects]
        exact spans
      rw [← List.append_assoc]
      exact ih (c.act k spans ha) (k.act ha) spans₁ has

end Chronicle

/-! ### Where reports come from -/

/-- **The timer that a report comes from**: one of the two of a heart that was live when the
advance began. -/
inductive Fired (s : Show) : Timer → Event → Prop
  | rise {h : Heart} (target : Point) : h ∈ s.live →
      Fired s (h.riseTimer s.effects.timing) (.rose h.id target)
  | finish {h g : Heart} : h ∈ s.live → h.SameBirth g →
      Fired s (h.endTimer s.effects.timing) (.expired g)

theorem Fired.exists_live {e : Event} (hf : Fired s t e) : ∃ h ∈ s.live, h.id = e.id := by
  cases hf with
  | rise target mem => exact ⟨_, mem, rfl⟩
  | finish mem birth => exact ⟨_, mem, birth.id.symm⟩

/-- A report of a later timer comes from a heart that was live before an earlier one. -/
theorem Fired.before {s₁ : Show} {u : Timer} {e : Event} (hf : Fired s₁ u e)
    (fires : Fires t s events s₁) : Fired s u e := by
  have timing : s₁.effects.timing = s.effects.timing := by rw [fires.sameFrame.effects]
  have back : ∀ h₁ ∈ s₁.live, ∃ h ∈ s.live, h.SameBirth h₁ := by
    intro h₁ hh₁
    obtain ⟨h, hh, moved⟩ := fires.back hh₁
    refine ⟨h, hh, ?_⟩
    rcases moved with rfl | ⟨-, -, target, rfl⟩
    · exact Heart.SameBirth.refl _
    · exact ⟨rfl, rfl, rfl, rfl, rfl⟩
  cases hf with
  | rise target mem =>
      obtain ⟨h, hh, birth⟩ := back _ mem
      rw [timing, birth.riseTimer, birth.id]
      exact Fired.rise target hh
  | finish mem later =>
      obtain ⟨h, hh, birth⟩ := back _ mem
      rw [timing, birth.endTimer]
      exact Fired.finish hh (birth.trans later)

theorem Fires.fired (k : Kept (t :: ts) s) (hf : Fires t s events s') :
    ∃ us : List Timer, us.Sublist [t] ∧ List.Forall₂ (Fired s) us events := by
  cases hf with
  | rises effect found waits =>
      obtain ⟨mem, same⟩ := mem_of_get? found
      obtain ⟨-, timer⟩ := k.eq_riseTimer List.mem_cons_self effect mem same.symm
      refine ⟨[t], List.Sublist.refl _, List.Forall₂.cons ?_ List.Forall₂.nil⟩
      rw [timer]
      exact Fired.rise _ mem
  | ends effect found =>
      obtain ⟨mem, same⟩ := mem_of_get? found
      have timer := k.eq_endTimer List.mem_cons_self effect mem same.symm
      refine ⟨[t], List.Sublist.refl _, List.Forall₂.cons ?_ List.Forall₂.nil⟩
      rw [timer]
      exact Fired.finish mem ⟨rfl, rfl, rfl, rfl, rfl⟩
  | late effect risen => exact ⟨[], List.nil_sublist _, List.Forall₂.nil⟩
  | gone effect absent => exact ⟨[], List.nil_sublist _, List.Forall₂.nil⟩

/-- The reports of timers come from some of these timers, in their order. -/
theorem fired_of_fireAll (k : Kept (ts ++ rest) s) (hf : fireAll ts s = .ok (events, s')) :
    ∃ us : List Timer, us.Sublist ts ∧ List.Forall₂ (Fired s) us events := by
  induction ts generalizing s events with
  | nil =>
      cases hf
      exact ⟨[], List.Sublist.refl _, List.Forall₂.nil⟩
  | cons t ts ih =>
      obtain ⟨first, s₁, more, ht, hts, rfl⟩ := fireAll_cons.1 hf
      have fires := fires_of_fire ht
      obtain ⟨us, sub, now⟩ := fires.fired k
      obtain ⟨vs, sub', later⟩ := ih (k.fire fires) hts
      refine ⟨us ++ vs, sub.append sub', ?_⟩
      exact List.rel_append now (later.imp fun u e hf => hf.before fires)

/-- **The reports of an advance come in the order of their timers**: of those that are due,
earlier before later, and in the order in which they were queued where they are due
together. -/
theorem fired_of_advance (k : Steady s) {now : Int} (h : s.advance now = .ok (events, s')) :
    ∃ us : List Timer, us.Sublist (s.agenda.due now) ∧ List.Forall₂ (Fired s) us events ∧
      us.Pairwise Timer.Before := by
  obtain ⟨us, sub, fired⟩ := fired_of_fireAll (k.kept_due now) h
  have within : us.Sublist s.agenda.timers := sub.trans (List.takeWhile_sublist _)
  refine ⟨us, sub, fired.imp ?_, ?_⟩
  · intro u e hf
    cases hf with
    | rise target mem => exact Fired.rise target mem
    | finish mem birth => exact Fired.finish mem birth
  · have sorted := s.agenda.sorted.sublist within
    have distinct : us.Pairwise fun a b => a.seq ≠ b.seq :=
      List.pairwise_map.1 (k.distinct.sublist (within.map _))
    exact (sorted.and distinct).imp fun both => both.1.before both.2

/-- Every report of an advance is about a heart that was live when it began. -/
theorem reported_live (k : Steady s) {now : Int} (h : s.advance now = .ok (events, s'))
    {e : Event} (he : e ∈ events) : ∃ g ∈ s.live, g.id = e.id := by
  obtain ⟨us, -, fired, -⟩ := fired_of_advance k h
  clear h
  induction fired with
  | nil => cases he
  | cons first _ ih =>
      rcases List.mem_cons.1 he with rfl | he
      · exact first.exists_live
      · exact ih he

/-! ### Silence -/

/-- Nothing more is heard of a heart that was born and is gone. -/
theorem silent_of_gone (k : Steady s) {id : Nat} (born : id < s.nextId)
    (gone : ∀ h ∈ s.live, h.id ≠ id) {history : List Action}
    (h : s.run history = .ok (events, s')) : ∀ e ∈ events, e.id ≠ id := by
  induction history generalizing s events with
  | nil =>
      cases h
      exact fun _ he => nomatch he
  | cons a as ih =>
      obtain ⟨first, s₁, more, ha, has, rfl⟩ := run_cons.1 h
      have carried := Carried.act k ha
      have still : ∀ g ∈ s₁.live, g.id ≠ id := by
        intro g hg same
        obtain ⟨f, hf, birth, -⟩ := carried.back g hg (by rw [same]; exact born)
        exact gone f hf (birth.id.symm.trans same)
      have quiet : ∀ e ∈ first, e.id ≠ id := by
        cases a with
        | burst origin now =>
            rw [(act_burst.1 ha).2]
            exact fun _ he => nomatch he
        | advance now =>
            intro e he same
            obtain ⟨g, hg, about⟩ := reported_live k ha he
            exact gone g hg (about.trans same)
        | cancel _ =>
            cases ha
            exact fun _ he => nomatch he
      intro e he
      rcases List.mem_append.1 he with he | he
      · exact quiet e he
      · exact ih (k.act ha) (Nat.lt_of_lt_of_le born carried.nextId) still has e he

/-- Nothing more is heard of a heart once it has been cancelled. -/
theorem silent_of_cancel (k : Steady s) {id : Nat} (found : (s.cancel id).1 = true)
    {history : List Action} (h : (s.cancel id).2.run history = .ok (events, s')) :
    ∀ e ∈ events, e.id ≠ id := by
  obtain ⟨heart, live⟩ := Option.isSome_iff_exists.1 found
  obtain ⟨mem, rfl⟩ := mem_of_get? live
  exact silent_of_gone (k.cancel heart.id) (k.born heart mem) (fun g hg => (mem_remove.1 hg).2) h

/-! ### The law of the log -/

/-- **A log in which each heart has its life in order.** -/
structure Lawful (timing : Timing) (log : List Event) : Prop where
  /-- No heart rises twice. -/
  rises_once : ((log.filter Event.isRise).map Event.id).Nodup
  /-- No heart ends twice. -/
  ends_once : ((log.filter fun e => !e.isRise).map Event.id).Nodup
  /-- A heart that ends has been reported to rise to the target it has, it rose when it was
  to, and nothing is heard of it afterwards. -/
  ends_last : ∀ before heart behind, log = before ++ .expired heart :: behind →
    .rose heart.id heart.target ∈ before ∧ heart.phase = .expired ∧
      heart.riseStartedAt = some (heart.riseAt timing) ∧ ∀ e ∈ behind, e.id ≠ heart.id

/-- Reports of one kind are about different hearts. -/
theorem Chronicle.nodup (c : Chronicle log s) (kind : Bool) :
    ((log.filter fun e => e.isRise == kind).map Event.id).Nodup := by
  refine List.pairwise_map.2 (List.pairwise_filter.2 (c.order.imp ?_))
  intro e f follows he hf
  exact follows.id_ne_of_isRise ((beq_iff_eq.1 he).trans (beq_iff_eq.1 hf).symm)

theorem Chronicle.lawful (c : Chronicle log s) : Lawful s.effects.timing log where
  rises_once := by simpa using c.nodup true
  ends_once := by simpa using c.nodup false
  ends_last := by
    rintro before heart behind rfl
    obtain ⟨told, phase, rose⟩ := c.ended heart (by simp)
    obtain ⟨-, order, -⟩ := List.pairwise_append.1 c.order
    have silent : ∀ e ∈ behind, e.id ≠ heart.id := fun e he =>
      ((List.pairwise_cons.1 order).1 e he).id_ne_of_end
    refine ⟨?_, phase, rose, silent⟩
    -- the rise stands in the log, and not at the end or behind it
    rcases List.mem_append.1 told with earlier | later
    · exact earlier
    · rcases List.mem_cons.1 later with first | later
      · cases first
      · exact absurd rfl (silent _ later)

/-- **The law of the event log.**  Under valid settings, whatever a show has been asked to do
and has done without a fault: in all that its advances have reported, no heart rises twice or
ends twice; one that ends has been reported to rise, rose when it was to, ends where it was
announced to go, and is not heard of again; nor is one that has been cancelled.  The reports
of one advance come from timers that were due, in the order of these: the earlier first, and
of two due together the one that was queued first. -/
theorem reports_in_order {effects : Effects} {source : WordSource} {history : List Action}
    (valid : effects.fault? = none) (h : (new effects source).run history = .ok (log, s)) :
    Lawful effects.timing log ∧
    (∀ before id since log₁ s₁ log₂ s₂, history = before ++ .cancel id :: since →
      (new effects source).run before = .ok (log₁, s₁) → (s₁.cancel id).1 = true →
      (s₁.cancel id).2.run since = .ok (log₂, s₂) → ∀ e ∈ log₂, e.id ≠ id) ∧
    (∀ before now since log₁ s₁ reported s₂, history = before ++ .advance now :: since →
      (new effects source).run before = .ok (log₁, s₁) →
      s₁.advance now = .ok (reported, s₂) →
      ∃ us : List Timer, us.Sublist (s₁.agenda.due now) ∧ List.Forall₂ (Fired s₁) us reported ∧
        us.Pairwise Timer.Before) := by
  have k := steady_new effects source
  have spans := (Effects.fault?_eq_none_iff.1 valid).riseSpan_lt_lifeSpan
  refine ⟨?_, ?_, ?_⟩
  · have same : s.effects = effects := (Carried.run k h).effects
    rw [← same]
    exact ((chronicle_new effects source).run k spans h).lawful
  · intro before id since log₁ s₁ log₂ s₂ _ hbefore found hsince
    exact silent_of_cancel (k.run hbefore) found hsince
  · intro before now since log₁ s₁ reported s₂ _ hbefore hadvance
    exact fired_of_advance (k.run hbefore) hadvance

/-- Two hearts, of which one is cancelled after both have risen. -/
theorem reports_of_two_hearts :
    single.fault? = none ∧ ∃ log s, (new single ⟨[0], 0⟩).run
        [.burst ⟨3.0, 4.0⟩ 0, .burst ⟨5.0, 6.0⟩ 0, .advance 20000000, .cancel 1,
          .advance 3000000000] = .ok (log, s) ∧
      log.map Event.id = [0, 1, 0] ∧ Lawful single.timing log := by
  have valid : single.fault? = none := by decide
  obtain ⟨⟨log, s⟩, h⟩ : ∃ r, (new single ⟨[0], 0⟩).run
      [.burst ⟨3.0, 4.0⟩ 0, .burst ⟨5.0, 6.0⟩ 0, .advance 20000000, .cancel 1,
        .advance 3000000000] = .ok r := ⟨_, rfl⟩
  have told : ((new single ⟨[0], 0⟩).run
      [.burst ⟨3.0, 4.0⟩ 0, .burst ⟨5.0, 6.0⟩ 0, .advance 20000000, .cancel 1,
        .advance 3000000000]).map (fun r => r.1.map Event.id) = .ok [0, 1, 0] := by
    decide
  rw [h] at told
  exact ⟨valid, log, s, h, Except.ok.inj told, (reports_in_order valid h).1⟩

end Show

end HeartKeypad
