import HeartKeypad.Proofs.Show.Upkeep

/-!
# The lives of hearts

What becomes of a heart can be read off the history alone: it is live until its number is
cancelled or an advance reaches the end of its life, and it rises as soon as an advance
reaches its rise.  Instants need not increase, bursts may lie in the past, and a heart may
be due to end before it is due to rise; none of this makes a difference.

* `Show.Reached` — an advance of a history has reached an instant.
* `Show.Carried` — what a history does to the hearts that were live before it.
* `Show.Fate` — what a history made of one heart.

### How the two books are used

That a heart rises or ends in time, not earlier and not later, is read off its timers.
The timers that fired are those that had come due, and `Show.Kept.eq_riseTimer` and
`Show.Kept.eq_endTimer` say whose they were (`Show.Carried.advance`, one direction); the
timers of the hearts still live afterwards are still pending, so they are due later (the
other direction).
-/

namespace HeartKeypad

/-- Two states of one heart: what it was born with is the same. -/
structure Heart.SameBirth (g h : Heart) : Prop where
  id : h.id = g.id
  position : h.position = g.position
  size : h.size = g.size
  color : h.color = g.color
  createdAt : h.createdAt = g.createdAt

namespace Heart.SameBirth

variable {f g h : Heart}

theorem refl (h : Heart) : h.SameBirth h := ⟨rfl, rfl, rfl, rfl, rfl⟩

theorem trans (hfg : f.SameBirth g) (hgh : g.SameBirth h) : f.SameBirth h where
  id := hgh.id.trans hfg.id
  position := hgh.position.trans hfg.position
  size := hgh.size.trans hfg.size
  color := hgh.color.trans hfg.color
  createdAt := hgh.createdAt.trans hfg.createdAt

theorem riseAt (e : g.SameBirth h) (timing : Timing) : h.riseAt timing = g.riseAt timing := by
  rw [Heart.riseAt, e.createdAt, Heart.riseAt]

theorem endAt (e : g.SameBirth h) (timing : Timing) : h.endAt timing = g.endAt timing := by
  rw [Heart.endAt, e.createdAt, Heart.endAt]

end Heart.SameBirth

namespace Show

/-- An advance of the history has reached the instant. -/
def Reached (history : List Action) (t : Int) : Prop :=
  ∃ now, .advance now ∈ history ∧ t ≤ now

/-- The history has ended the heart, before its time or in time. -/
def Ended (timing : Timing) (history : List Action) (h : Heart) : Prop :=
  .cancel h.id ∈ history ∨ Reached history (h.endAt timing)

variable {s s₁ s' : Show} {events : List Event} {as bs : List Action}

theorem not_reached_nil (t : Int) : ¬ Reached [] t := by
  rintro ⟨now, mem, -⟩
  cases mem

theorem reached_append {t : Int} : Reached (as ++ bs) t ↔ Reached as t ∨ Reached bs t := by
  constructor
  · rintro ⟨now, mem, le⟩
    exact (List.mem_append.1 mem).imp (fun mem => ⟨now, mem, le⟩) fun mem => ⟨now, mem, le⟩
  · rintro (⟨now, mem, le⟩ | ⟨now, mem, le⟩)
    · exact ⟨now, List.mem_append_left bs mem, le⟩
    · exact ⟨now, List.mem_append_right as mem, le⟩

theorem reached_advance {now t : Int} : Reached [.advance now] t ↔ t ≤ now := by
  constructor
  · rintro ⟨now', mem, le⟩
    cases List.mem_singleton.1 mem
    exact le
  · exact fun le => ⟨now, List.mem_singleton_self _, le⟩

theorem ended_append {timing : Timing} {h : Heart} :
    Ended timing (as ++ bs) h ↔ Ended timing as h ∨ Ended timing bs h := by
  rw [Ended, reached_append, List.mem_append]
  exact or_or_or_comm

/-- Two states of one heart are ended by the same histories. -/
theorem Ended.congr {timing : Timing} {g h : Heart} (e : g.SameBirth h) :
    Ended timing as h ↔ Ended timing as g := by
  rw [Ended, Ended, e.id, e.endAt]

/-- **What a history does to the hearts that were live before it.** -/
structure Carried (history : List Action) (s s' : Show) : Prop where
  effects : s'.effects = s.effects
  nextId : s.nextId ≤ s'.nextId
  /-- A heart with an old number comes from one that was live, and it rises iff that one
  did or its rise has been reached. -/
  back : ∀ h' ∈ s'.live, h'.id < s.nextId → ∃ h ∈ s.live, h.SameBirth h' ∧
    (h'.phase = .rising ↔
      h.phase = .rising ∨ Reached history (h.riseAt s.effects.timing))
  /-- A heart stays live unless it has been ended. -/
  kept : ∀ h ∈ s.live, (∃ h' ∈ s'.live, h'.id = h.id) ↔ ¬ Ended s.effects.timing history h

namespace Carried

theorem nil (s : Show) : Carried [] s s where
  effects := rfl
  nextId := Nat.le_refl _
  back := fun h hh _ => ⟨h, hh, Heart.SameBirth.refl h,
    ⟨Or.inl, fun rises => rises.resolve_right (not_reached_nil _)⟩⟩
  kept := by
    intro h hh
    refine ⟨fun _ ended => ?_, fun _ => ⟨h, hh, rfl⟩⟩
    rcases ended with mem | reached
    · cases mem
    · exact not_reached_nil _ reached

/-- One history after another. -/
theorem append (k : Steady s) (first : Carried as s s₁) (second : Carried bs s₁ s') :
    Carried (as ++ bs) s s' where
  effects := second.effects.trans first.effects
  nextId := Nat.le_trans first.nextId second.nextId
  back := by
    intro h₂ hh₂ old
    obtain ⟨h₁, hh₁, birth₁, rises₁⟩ := second.back h₂ hh₂ (Nat.lt_of_lt_of_le old first.nextId)
    rw [birth₁.id] at old
    obtain ⟨h, hh, birth, rises⟩ := first.back h₁ hh₁ old
    refine ⟨h, hh, birth.trans birth₁, ?_⟩
    rw [rises₁, rises, first.effects, birth.riseAt, reached_append, or_assoc]
  kept := by
    intro h hh
    rw [ended_append, not_or, ← first.kept h hh]
    constructor
    · rintro ⟨h₂, hh₂, same₂⟩
      -- a heart live at the end was live in between, and as the same heart
      have old : h₂.id < s.nextId := same₂ ▸ k.born h hh
      obtain ⟨h₁, hh₁, birth₁, -⟩ := second.back h₂ hh₂ (Nat.lt_of_lt_of_le old first.nextId)
      have same₁ : h₁.id = h.id := birth₁.id.symm.trans same₂
      obtain ⟨g, hg, birth, -⟩ := first.back h₁ hh₁ (same₁ ▸ k.born h hh)
      obtain rfl := k.eq_of_id hg hh (birth.id.symm.trans same₁)
      refine ⟨⟨h₁, hh₁, same₁⟩, ?_⟩
      rw [← Ended.congr birth, ← first.effects]
      exact (second.kept h₁ hh₁).1 ⟨h₂, hh₂, birth₁.id⟩
    · rintro ⟨⟨h₁, hh₁, same₁⟩, live⟩
      obtain ⟨g, hg, birth, -⟩ := first.back h₁ hh₁ (same₁ ▸ k.born h hh)
      obtain rfl := k.eq_of_id hg hh (birth.id.symm.trans same₁)
      rw [← Ended.congr birth, ← first.effects] at live
      obtain ⟨h₂, hh₂, same₂⟩ := (second.kept h₁ hh₁).2 live
      exact ⟨h₂, hh₂, same₂.trans same₁⟩

/-! ### One action -/

/-- Cancelling ends the heart with the number, and does nothing to the others. -/
theorem cancel (s : Show) (id : Nat) : Carried [.cancel id] s (s.cancel id).2 where
  effects := rfl
  nextId := Nat.le_refl _
  back := by
    intro h hh _
    refine ⟨h, (mem_remove.1 hh).1, Heart.SameBirth.refl h, Or.inl, fun rises => ?_⟩
    refine rises.resolve_right ?_
    rintro ⟨now, mem, -⟩
    cases List.mem_singleton.1 mem
  kept := by
    intro h hh
    constructor
    · rintro ⟨h', hh', same⟩ (mem | ⟨now, mem, -⟩)
      · cases List.mem_singleton.1 mem
        exact (mem_remove.1 hh').2 same
      · cases List.mem_singleton.1 mem
    · intro live
      refine ⟨h, mem_remove.2 ⟨hh, fun same => live (Or.inl ?_)⟩, rfl⟩
      rw [same]
      exact List.mem_singleton_self _

end Carried

theorem Fires.back {t : Timer} (hf : Fires t s events s') {h' : Heart} (hh' : h' ∈ s'.live) :
    ∃ h ∈ s.live, h' = h ∨
      t.effect = .rise ∧ t.heart = h.id ∧ ∃ target, h' = h.risen t.due target := by
  cases hf with
  | @rises heart target w effect found waits =>
      obtain ⟨mem, same⟩ := mem_of_get? found
      rcases mem_replace.1 hh' with ⟨live, -⟩ | ⟨rfl, -⟩
      · exact ⟨h', live, Or.inl rfl⟩
      · exact ⟨heart, mem, Or.inr ⟨effect, same.symm, target, rfl⟩⟩
  | ends effect found => exact ⟨h', (mem_remove.1 hh').1, Or.inl rfl⟩
  | late effect risen => exact ⟨h', hh', Or.inl rfl⟩
  | gone effect absent => exact ⟨h', hh', Or.inl rfl⟩

/-- Firing timers leaves a live heart as it was, unless one of them raised it. -/
theorem back_of_fireAll {ts : List Timer} (hf : fireAll ts s = .ok (events, s')) {h' : Heart}
    (hh' : h' ∈ s'.live) : ∃ h ∈ s.live, h' = h ∨ ∃ t ∈ ts, t.effect = .rise ∧
      t.heart = h.id ∧ ∃ target, h' = h.risen t.due target := by
  induction ts generalizing s events with
  | nil =>
      cases hf
      exact ⟨h', hh', Or.inl rfl⟩
  | cons t ts ih =>
      obtain ⟨first, s₁, more, ht, hts, -⟩ := fireAll_cons.1 hf
      obtain ⟨h₁, hh₁, later⟩ := ih hts
      obtain ⟨h, hh, now⟩ := (fires_of_fire ht).back hh₁
      refine ⟨h, hh, ?_⟩
      rcases now with rfl | ⟨effect, same, target, rfl⟩
      · refine later.imp id ?_
        rintro ⟨u, hu, moved⟩
        exact ⟨u, List.mem_cons_of_mem t hu, moved⟩
      · -- what `t` has raised may be raised again, but it was `h` all along
        rcases later with rfl | ⟨u, hu, effect', same', target', rfl⟩
        · exact Or.inr ⟨t, List.mem_cons_self, effect, same, target, rfl⟩
        · exact Or.inr ⟨u, List.mem_cons_of_mem t hu, effect', same', target', rfl⟩

theorem Fires.kept {t : Timer} (hf : Fires t s events s') {h : Heart} (hh : h ∈ s.live)
    (unended : t.effect = .expire → t.heart ≠ h.id) : ∃ h' ∈ s'.live, h'.id = h.id := by
  cases hf with
  | @rises heart target w effect found waits =>
      by_cases same : h.id = heart.id
      · exact ⟨_, mem_replace.2 (Or.inr ⟨rfl, h, hh, same⟩), same.symm⟩
      · exact ⟨h, mem_replace.2 (Or.inl ⟨hh, same⟩), rfl⟩
  | ends effect found => exact ⟨h, mem_remove.2 ⟨hh, (unended effect).symm⟩, rfl⟩
  | late effect risen => exact ⟨h, hh, rfl⟩
  | gone effect absent => exact ⟨h, hh, rfl⟩

/-- A heart stays live unless one of the timers fired ends it. -/
theorem kept_of_fireAll {ts : List Timer} (hf : fireAll ts s = .ok (events, s')) {h : Heart}
    (hh : h ∈ s.live) (unended : ∀ t ∈ ts, t.effect = .expire → t.heart ≠ h.id) :
    ∃ h' ∈ s'.live, h'.id = h.id := by
  induction ts generalizing s events h with
  | nil =>
      cases hf
      exact ⟨h, hh, rfl⟩
  | cons t ts ih =>
      obtain ⟨first, s₁, more, ht, hts, -⟩ := fireAll_cons.1 hf
      obtain ⟨h₁, hh₁, same₁⟩ := (fires_of_fire ht).kept hh (unended t List.mem_cons_self)
      obtain ⟨h', hh', same⟩ := ih hts hh₁ fun u hu effect => by
        rw [same₁]
        exact unended u (List.mem_cons_of_mem t hu) effect
      exact ⟨h', hh', same.trans same₁⟩

/-- What is still on the agenda after an advance is due later. -/
theorem lt_due_of_advance {now : Int} (h : s.advance now = .ok (events, s')) {t : Timer}
    (ht : t ∈ s'.agenda.timers) : now < t.due := by
  rw [agenda_advance h] at ht
  exact (Agenda.mem_after_iff.1 ht).2

namespace Carried

/-- **An advance raises and ends the hearts whose instants it has reached.** -/
theorem advance (k : Steady s) {now : Int} (h : s.advance now = .ok (events, s')) :
    Carried [.advance now] s s' := by
  have k' := k.advance h
  have back : ∀ h' ∈ s'.live, ∃ h ∈ s.live, h.SameBirth h' ∧
      (h'.phase = .rising ↔ h.phase = .rising ∨ h.riseAt s.effects.timing ≤ now) := by
    intro h' hh'
    obtain ⟨g, hg, moved⟩ := back_of_fireAll h hh'
    have birth : g.SameBirth h' := by
      rcases moved with rfl | ⟨t, ht, effect, same, target, rfl⟩
      · exact Heart.SameBirth.refl _
      · exact ⟨rfl, rfl, rfl, rfl, rfl⟩
    refine ⟨g, hg, birth, fun rises => ?_, ?_⟩
    · -- not earlier: the timer that raised it had come due
      rcases moved with rfl | ⟨t, ht, effect, same, -⟩
      · exact Or.inl rises
      · obtain ⟨pending, due⟩ := Agenda.mem_due ht
        obtain ⟨-, rfl⟩ := k.eq_riseTimer pending effect hg same
        exact Or.inr due
    · rintro (rises | due)
      · rcases moved with rfl | ⟨t, ht, effect, same, target, rfl⟩
        · exact rises
        · rfl
      · -- not later: if it still waits, its timer is due later
        rcases k'.phase h' hh' with ⟨-, pending⟩ | ⟨rises, -⟩
        · have later : now < h'.riseAt s'.effects.timing := lt_due_of_advance h pending
          rw [birth.riseAt, (sameFrame_fireAll h).effects] at later
          exact absurd due (Int.not_le.2 later)
        · exact rises.phase
  refine ⟨(sameFrame_fireAll h).effects, Nat.le_of_eq (sameFrame_fireAll h).nextId.symm,
    fun h' hh' _ => ?_, fun g hg => ⟨?_, fun live => ?_⟩⟩
  · obtain ⟨g, hg, birth, rises⟩ := back h' hh'
    rw [← reached_advance] at rises
    exact ⟨g, hg, birth, rises⟩
  · rintro ⟨h', hh', same⟩ (mem | reached)
    · cases List.mem_singleton.1 mem
    · obtain ⟨f, hf, birth, -⟩ := back h' hh'
      obtain rfl := k.eq_of_id hf hg (birth.id.symm.trans same)
      have later : now < h'.endAt s'.effects.timing := lt_due_of_advance h (k'.ends h' hh')
      rw [birth.endAt, (sameFrame_fireAll h).effects] at later
      exact absurd (reached_advance.1 reached) (Int.not_le.2 later)
  · refine kept_of_fireAll h hg fun t ht effect same => live (Or.inr ?_)
    obtain ⟨pending, due⟩ := Agenda.mem_due ht
    obtain rfl := k.eq_endTimer pending effect hg same
    exact reached_advance.2 due

end Carried

/-! ### Bursts -/

/-- **What a burst does**: it adds hearts with new numbers, born at its instant. -/
structure Bears (now : Int) (born : List Heart) (s s' : Show) : Prop where
  effects : s'.effects = s.effects
  nextId : s'.nextId = s.nextId + born.length
  live : s'.live = s.live ++ born
  fresh : ∀ b ∈ born, s.nextId ≤ b.id
  createdAt : ∀ b ∈ born, b.createdAt = now
  waiting : ∀ b ∈ born, b.Waiting

theorem bears_of_releaseMany {origin : Point} {now riseAt endAt : Int} {n : Nat}
    (h : s.releaseMany origin now riseAt endAt n = .ok s') :
    ∃ born, born.length = n ∧ Bears now born s s' := by
  induction n generalizing s with
  | zero =>
      cases h
      exact ⟨[], rfl, rfl, rfl, (List.append_nil _).symm, List.forall_mem_nil _,
        List.forall_mem_nil _, List.forall_mem_nil _⟩
  | succ n ih =>
      obtain ⟨s₁, first, rest⟩ := bind_eq_ok_iff.1 h
      obtain ⟨heart, w, number, createdAt, waits, rfl⟩ := release_eq_ok first
      obtain ⟨born, length, bears⟩ := ih rest
      refine ⟨heart :: born, by rw [List.length_cons, length], bears.effects, ?_, ?_,
        List.forall_mem_cons.2 ⟨Nat.le_of_eq number.symm, fun b hb => ?_⟩,
        List.forall_mem_cons.2 ⟨createdAt, bears.createdAt⟩,
        List.forall_mem_cons.2 ⟨waits, bears.waiting⟩⟩
      · rw [bears.nextId, List.length_cons, Nat.add_assoc, Nat.add_comm 1]
      · rw [bears.live, List.append_assoc, List.singleton_append]
      · exact Nat.le_of_succ_le (bears.fresh b hb)

theorem bears_of_burst {origin : Point} {now : Int} (h : s.burst origin now = .ok s') :
    ∃ born, born.length = s.effects.burst.count.toNat ∧ Bears now born s s' :=
  bears_of_releaseMany (releaseMany_of_burst h)

namespace Carried

/-- A burst does nothing to the hearts that were live before it. -/
theorem burst {now : Int} {born : List Heart} (b : Bears now born s s') (origin : Point) :
    Carried [.burst origin now] s s' := by
  have idle : ∀ t, ¬ Reached [.burst origin now] t := by
    rintro t ⟨now', mem, -⟩
    cases List.mem_singleton.1 mem
  refine ⟨b.effects, by rw [b.nextId]; exact Nat.le_add_right _ _, fun h hh old => ?_,
    fun h hh => ⟨?_, fun _ => ?_⟩⟩
  · rw [b.live] at hh
    rcases List.mem_append.1 hh with hh | hh
    · exact ⟨h, hh, Heart.SameBirth.refl h, Or.inl, fun rises => rises.resolve_right (idle _)⟩
    · exact absurd old (Nat.not_lt.2 (b.fresh h hh))
  · rintro - (mem | reached)
    · cases List.mem_singleton.1 mem
    · exact idle _ reached
  · rw [b.live]
    exact ⟨h, List.mem_append_left born hh, rfl⟩

/-- One action. -/
theorem act (k : Steady s) {a : Action} (h : s.act a = .ok (events, s')) :
    Carried [a] s s' := by
  cases a with
  | burst origin now =>
      obtain ⟨born, -, bears⟩ := bears_of_burst (act_burst.1 h).1
      exact burst bears origin
  | advance now => exact advance k h
  | cancel id =>
      cases h
      exact cancel _ id

/-- **Any history.** -/
theorem run (k : Steady s) {history : List Action} (h : s.run history = .ok (events, s')) :
    Carried history s s' := by
  induction history generalizing s events with
  | nil =>
      cases h
      exact nil _
  | cons a as ih =>
      obtain ⟨first, s₁, more, ha, has, -⟩ := run_cons.1 h
      exact (act k ha).append k (ih (k.act ha) has)

end Carried

/-! ### The life of one heart -/

/-- **What the actions since its birth made of a heart.** -/
structure Fate (timing : Timing) (since : List Action) (b : Heart) (s : Show) : Prop where
  /-- It is live iff its number has not been cancelled and its end not been reached. -/
  live_iff : (s.get? b.id).isSome ↔
    .cancel b.id ∉ since ∧ ¬ Reached since (b.endAt timing)
  /-- It is as it was born. -/
  birth : ∀ h, s.get? b.id = some h → b.SameBirth h
  /-- It rises if its rise has been reached. -/
  rising : Reached since (b.riseAt timing) → ∀ h, s.get? b.id = some h → h.Rising timing
  /-- It waits where it was born if not. -/
  waiting : ¬ Reached since (b.riseAt timing) → ∀ h, s.get? b.id = some h → h.Waiting

/-- A burst behind some actions released the hearts. -/
def Released (start : Show) (before : List Action) (origin : Point) (now : Int)
    (born : List Heart) : Prop :=
  ∃ reported s₀ s₁, start.run before = .ok (reported, s₀) ∧
    s₀.burst origin now = .ok s₁ ∧ s₁.live = s₀.live ++ born

/-- A heart that waits has the fate that the history gives it. -/
theorem fate_of_run (k : Steady s) {b : Heart} (hb : b ∈ s.live) (waits : b.Waiting)
    {since : List Action} (h : s.run since = .ok (events, s')) :
    Fate s.effects.timing since b s' := by
  have k' := k.run h
  have carried := Carried.run k h
  have back : ∀ g, s'.get? b.id = some g → g ∈ s'.live ∧ b.SameBirth g ∧
      (g.phase = .rising ↔ Reached since (b.riseAt s.effects.timing)) := by
    intro g found
    obtain ⟨hg, same⟩ := mem_of_get? found
    obtain ⟨f, hf, birth, rises⟩ := carried.back g hg (by rw [same]; exact k.born b hb)
    obtain rfl := k.eq_of_id hf hb (birth.id.symm.trans same)
    refine ⟨hg, birth, rises.trans ⟨fun r => r.resolve_left ?_, Or.inr⟩⟩
    rw [waits.phase]
    exact fun e => nomatch e
  refine ⟨?_, fun g found => (back g found).2.1, fun reached g found => ?_,
    fun unreached g found => ?_⟩
  · rw [← not_or]
    refine Iff.trans ⟨fun live => ?_, ?_⟩ (carried.kept b hb)
    · obtain ⟨g, found⟩ := Option.isSome_iff_exists.1 live
      exact ⟨g, mem_of_get? found⟩
    · rintro ⟨g, hg, same⟩
      rw [← same, k'.get?_eq hg]
      rfl
  · obtain ⟨hg, -, rises⟩ := back g found
    rcases k'.phase g hg with ⟨waiting, -⟩ | ⟨rising, -⟩
    · have phase := rises.2 reached
      rw [waiting.phase] at phase
      cases phase
    · rwa [carried.effects] at rising
  · obtain ⟨hg, -, rises⟩ := back g found
    rcases k'.phase g hg with ⟨waiting, -⟩ | ⟨rising, -⟩
    · exact waiting
    · exact absurd (rises.1 rising.phase) unreached

/-- A live heart with a new number comes from the action, and that was a burst. -/
theorem burst_of_new (k : Steady s) {a : Action} (h : s.act a = .ok (events, s')) {g : Heart}
    (hg : g ∈ s'.live) (new : s.nextId ≤ g.id) : ∃ origin now born,
      a = .burst origin now ∧ s.burst origin now = .ok s' ∧ s'.live = s.live ++ born ∧
        g ∈ born := by
  have bound := (k.act h).born g hg
  cases a with
  | burst origin now =>
      obtain ⟨hburst, -⟩ := act_burst.1 h
      obtain ⟨born, -, bears⟩ := bears_of_burst hburst
      refine ⟨origin, now, born, rfl, hburst, bears.live, ?_⟩
      rw [bears.live] at hg
      refine (List.mem_append.1 hg).resolve_left fun old => ?_
      exact absurd (k.born g old) (Nat.not_lt.2 new)
  | advance now =>
      rw [(sameFrame_fireAll h).nextId] at bound
      exact absurd bound (Nat.not_lt.2 new)
  | cancel id =>
      cases h
      exact absurd bound (Nat.not_lt.2 new)

/-- A live heart with a new number was released by one of the bursts. -/
theorem released_of_run (k : Steady s) {history : List Action}
    (h : s.run history = .ok (events, s')) {g : Heart} (hg : g ∈ s'.live)
    (new : s.nextId ≤ g.id) : ∃ before origin now since born,
      history = before ++ .burst origin now :: since ∧ Released s before origin now born ∧
        ∃ b ∈ born, b.id = g.id := by
  induction history generalizing s events with
  | nil =>
      cases h
      exact absurd (k.born g hg) (Nat.not_lt.2 new)
  | cons a as ih =>
      obtain ⟨first, s₁, more, ha, has, -⟩ := run_cons.1 h
      by_cases later : s₁.nextId ≤ g.id
      · obtain ⟨before, origin, now, since, born, rfl, ⟨reported, s₀, s₂, hbefore, burst⟩,
          hb⟩ := ih (k.act ha) has later
        exact ⟨a :: before, origin, now, since, born, rfl,
          ⟨first ++ reported, s₀, s₂, run_cons.2 ⟨first, s₁, reported, ha, hbefore, rfl⟩,
            burst⟩, hb⟩
      · -- it was there right behind the first action
        obtain ⟨f, hf, birth, -⟩ :=
          (Carried.run (k.act ha) has).back g hg (Nat.not_le.1 later)
        rw [birth.id] at new ⊢
        obtain ⟨origin, now, born, rfl, hburst, live, hb⟩ := burst_of_new k ha hf new
        exact ⟨[], origin, now, as, born, rfl, ⟨[], s, s₁, rfl, hburst, live⟩, f, hb, rfl⟩

/-- The hearts of a burst are as many as the settings say, and have the fates that the
actions behind it give them. -/
theorem fates_of_burst (k : Steady s) {before since : List Action} {origin : Point}
    {now : Int} (h : s.run (before ++ .burst origin now :: since) = .ok (events, s')) :
    ∃ born, Released s before origin now born ∧
      born.length = s.effects.burst.count.toNat ∧
      ∀ b ∈ born, b.createdAt = now ∧ Fate s.effects.timing since b s' := by
  obtain ⟨reported, s₀, later, hbefore, hrest, -⟩ := run_append.1 h
  obtain ⟨reported₀, s₁, more, hact, hsince, -⟩ := run_cons.1 hrest
  obtain ⟨hburst, -⟩ := act_burst.1 hact
  obtain ⟨born, length, bears⟩ := bears_of_burst hburst
  have effects : s₀.effects = s.effects := (Carried.run k hbefore).effects
  rw [effects] at length
  refine ⟨born, ⟨reported, s₀, s₁, hbefore, hburst, bears.live⟩, length,
    fun b hb => ⟨bears.createdAt b hb, ?_⟩⟩
  have mem : b ∈ s₁.live := by
    rw [bears.live]
    exact List.mem_append_right _ hb
  rw [← effects, ← bears.effects]
  exact fate_of_run ((k.run hbefore).act hact) mem (bears.waiting b hb) hsince

/-- A number whose heart is gone does not come back. -/
theorem get?_eq_none_of_gone (k : Steady s) {reported : List Event} {middle last : List Action}
    (hmiddle : s.run middle = .ok (reported, s₁)) (hlast : s₁.run last = .ok (events, s'))
    {id : Nat} (live : (s.get? id).isSome) (gone : s₁.get? id = none) :
    s'.get? id = none := by
  obtain ⟨f, found⟩ := Option.isSome_iff_exists.1 live
  obtain ⟨hf, rfl⟩ := mem_of_get? found
  rw [get?_eq_none_iff] at gone ⊢
  intro g hg same
  -- the number was used up before, so a heart that has it was live in between
  have old : g.id < s₁.nextId := by
    rw [same]
    exact Nat.lt_of_lt_of_le (k.born f hf) (Carried.run k hmiddle).nextId
  obtain ⟨e, he, birth, -⟩ := (Carried.run (k.run hmiddle) hlast).back g hg old
  exact gone e he (birth.id.symm.trans same)

/-- **The lives of hearts.**  Every burst of a history releases as many hearts as the
settings say, and what becomes of each is its fate under the actions behind the burst.  No
other hearts are live at the end, no two live hearts have one number, and no number comes
back once its heart is gone. -/
theorem fates_of_run {effects : Effects} {source : WordSource} {history : List Action}
    (h : (new effects source).run history = .ok (events, s)) :
    (∀ before origin now since, history = before ++ .burst origin now :: since →
      ∃ born, Released (new effects source) before origin now born ∧
        born.length = effects.burst.count.toNat ∧
        ∀ b ∈ born, b.createdAt = now ∧ Fate effects.timing since b s) ∧
    (∀ g ∈ s.live, ∃ before origin now since born,
      history = before ++ .burst origin now :: since ∧
        Released (new effects source) before origin now born ∧ ∃ b ∈ born, b.id = g.id) ∧
    (s.live.map (·.id)).Nodup ∧
    (∀ first middle last reported₁ s₁ reported₂ s₂, history = first ++ middle ++ last →
      (new effects source).run first = .ok (reported₁, s₁) →
      s₁.run middle = .ok (reported₂, s₂) →
      ∀ id, (s₁.get? id).isSome → s₂.get? id = none → s.get? id = none) := by
  have k := steady_new effects source
  refine ⟨?_, fun g hg => released_of_run k h hg (Nat.zero_le _),
    (k.run h).ids.imp Nat.ne_of_lt, ?_⟩
  · rintro before origin now since rfl
    exact fates_of_burst k h
  · rintro first middle last reported₁ s₁ reported₂ s₂ rfl hfirst hmiddle id live gone
    obtain ⟨reported, s₃, more, hboth, hlast, -⟩ := run_append.1 h
    have same : run (first ++ middle) (new effects source) =
        .ok (reported₁ ++ reported₂, s₂) :=
      run_append.2 ⟨reported₁, s₁, reported₂, hfirst, hmiddle, rfl⟩
    rw [hboth] at same
    obtain ⟨-, rfl⟩ := Prod.mk.inj (Except.ok.inj same)
    exact get?_eq_none_of_gone (k.run hfirst) hmiddle hlast live gone

/-- Settings under which a burst is one heart, right where it is asked for. -/
def single : Effects where
  burst := { count := 1, jitterX := 0.0, jitterY := 0.0, sizeMin := 8.0, sizeMax := 8.0 }
  rise := { jitterX := 0.0, jitterY := 0.0 }

/-- A heart that rises, and still does when an advance goes back in time. -/
theorem fates_of_single_burst :
    ∃ events s, (new single ⟨[0], 0⟩).run
        [.burst ⟨3.0, 4.0⟩ 0, .advance 20000000, .advance 5] = .ok (events, s) ∧
      ∃ born, Released (new single ⟨[0], 0⟩) [] ⟨3.0, 4.0⟩ 0 born ∧ born.length = 1 ∧
        ∀ b ∈ born, ∃ g, s.get? b.id = some g ∧ g.Rising single.timing := by
  obtain ⟨⟨events, s⟩, h⟩ : ∃ r, (new single ⟨[0], 0⟩).run
      [.burst ⟨3.0, 4.0⟩ 0, .advance 20000000, .advance 5] = .ok r := ⟨_, rfl⟩
  obtain ⟨born, released, length, fates⟩ :=
    (fates_of_run h).1 [] ⟨3.0, 4.0⟩ 0 [.advance 20000000, .advance 5] rfl
  refine ⟨events, s, h, born, released, length, fun b hb => ?_⟩
  obtain ⟨createdAt, fate⟩ := fates b hb
  have rise : b.riseAt single.timing = 10000000 := by rw [Heart.riseAt, createdAt]; rfl
  have finish : b.endAt single.timing = 2100000000 := by rw [Heart.endAt, createdAt]; rfl
  have live : (s.get? b.id).isSome := by
    rw [fate.live_iff, finish]
    simp [Reached]
  obtain ⟨g, found⟩ := Option.isSome_iff_exists.1 live
  refine ⟨g, found, fate.rising ?_ g found⟩
  rw [rise]
  exact ⟨20000000, by simp, by decide⟩

end Show

end HeartKeypad
