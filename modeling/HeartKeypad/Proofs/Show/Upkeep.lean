import HeartKeypad.Proofs.Show.History
import Mathlib.Data.List.Nodup
import Mathlib.Data.List.TakeWhile

/-!
# Hearts and their timers

A show keeps two books, its live hearts and its agenda, and nothing in the types says that
they agree.  `Show.Kept` says how they do: every live heart has the one timer that will end
it, it has one that will raise it exactly while it waits, and no two timers are the same.
Timers without a live heart are left out of it, since cancelling leaves them behind.

### Why the timers are an argument

While a show advances, the timers that have come due are neither on the agenda nor fired
yet.  `Show.Kept pending s` therefore speaks of the timers still to be fired, wherever they
are kept; the loop over them takes one after the other off the list (`Show.Kept.fire`),
and between two actions the list is the agenda (`Show.Steady`).
-/

namespace HeartKeypad

/-- The timer that raises a heart. -/
def Heart.riseTimer (timing : Timing) (h : Heart) : Timer :=
  ⟨h.riseAt timing, 2 * h.id, h.id, .rise⟩

/-- The timer that ends a heart. -/
def Heart.endTimer (timing : Timing) (h : Heart) : Timer :=
  ⟨h.endAt timing, 2 * h.id + 1, h.id, .expire⟩

/-- The place of a timer among the two of its heart. -/
def Effect.rank : Effect → Nat
  | .rise => 0
  | .expire => 1

theorem Effect.rank_lt (e : Effect) : e.rank < 2 := by
  cases e with
  | rise => exact Nat.zero_lt_two
  | expire => exact Nat.one_lt_two

/-- Timers are numbered by their hearts, the one that raises before the one that ends. -/
def Timer.Numbered (t : Timer) : Prop := t.seq = 2 * t.heart + t.effect.rank

theorem Timer.Numbered.seq_eq {t u : Timer} (ht : t.Numbered) (hu : u.Numbered)
    (heart : t.heart = u.heart) (effect : t.effect = u.effect) : t.seq = u.seq := by
  rw [Numbered] at ht hu
  rw [ht, hu, heart, effect]

/-- The timers due at an instant are on the agenda, and due. -/
theorem Agenda.mem_due {a : Agenda} {now : Int} {t : Timer} (ht : t ∈ a.due now) :
    t ∈ a.timers ∧ t.due ≤ now := by
  have due : decide (t.due ≤ now) = true :=
    @List.mem_takeWhile_imp _ (fun t : Timer => decide (t.due ≤ now)) _ _ ht
  exact ⟨(List.takeWhile_subset _) ht, of_decide_eq_true due⟩

/-- Putting a timer into its place adds it and nothing else. -/
theorem Agenda.perm_place (t : Timer) (us : List Timer) : (place t us).Perm (t :: us) := by
  induction us with
  | nil => exact List.Perm.refl _
  | cons u us ih =>
      unfold place
      split
      · exact (ih.cons u).trans (List.Perm.swap t u us)
      · exact List.Perm.refl _

namespace Show

/-- **How live hearts and pending timers hang together.** -/
structure Kept (pending : List Timer) (s : Show) : Prop where
  /-- Hearts are listed by number, so no two have the same. -/
  ids : (s.live.map (·.id)).Pairwise (· < ·)
  /-- The next number is above all of them. -/
  born : ∀ h ∈ s.live, h.id < s.nextId
  /-- Every heart has taken two numbers for its timers. -/
  count : s.nextSeq = 2 * s.nextId
  /-- A timer belongs to a heart that was born. -/
  owned : ∀ t ∈ pending, t.heart < s.nextId
  numbered : ∀ t ∈ pending, t.Numbered
  distinct : (pending.map (·.seq)).Nodup
  /-- A live heart will be ended. -/
  ends : ∀ h ∈ s.live, h.endTimer s.effects.timing ∈ pending
  /-- A live heart waits and will be raised, or it has risen and will not be again. -/
  phase : ∀ h ∈ s.live, (h.Waiting ∧ h.riseTimer s.effects.timing ∈ pending) ∨
    (h.Rising s.effects.timing ∧ ∀ t ∈ pending, t.effect = .rise → t.heart ≠ h.id)

/-- A show between two actions, when all pending timers are on the agenda. -/
def Steady (s : Show) : Prop := Kept s.agenda.timers s

variable {s s' : Show} {events : List Event} {t : Timer} {ts pending : List Timer}

theorem steady_new (effects : Effects) (source : WordSource) : Steady (new effects source) where
  ids := List.Pairwise.nil
  born := fun _ h => nomatch h
  count := rfl
  owned := fun _ h => nomatch h
  numbered := fun _ h => nomatch h
  distinct := List.nodup_nil
  ends := fun _ h => nomatch h
  phase := fun _ h => nomatch h

namespace Kept

/-- Two pending timers that do the same to the same heart are one. -/
theorem unique (k : Kept pending s) {u : Timer} (ht : t ∈ pending) (hu : u ∈ pending)
    (heart : t.heart = u.heart) (effect : t.effect = u.effect) : t = u :=
  List.inj_on_of_nodup_map k.distinct ht hu
    ((k.numbered t ht).seq_eq (k.numbered u hu) heart effect)

/-- A live heart is known by its number. -/
theorem eq_of_id (k : Kept pending s) {g h : Heart} (hg : g ∈ s.live) (hh : h ∈ s.live)
    (same : g.id = h.id) : g = h :=
  List.inj_on_of_nodup_map (k.ids.imp Nat.ne_of_lt) hg hh same

theorem get?_eq (k : Kept pending s) {h : Heart} (hh : h ∈ s.live) : s.get? h.id = some h := by
  cases hg : s.get? h.id with
  | none => exact absurd rfl (get?_eq_none_iff.1 hg h hh)
  | some g =>
      obtain ⟨mem, same⟩ := mem_of_get? hg
      rw [k.eq_of_id mem hh same]

/-- A timer that finds nothing to do can be taken off. -/
theorem tail (k : Kept (t :: ts) s)
    (idle : ∀ h ∈ s.live, t.heart = h.id → t.effect = .rise ∧ h.phase ≠ .spawned) :
    Kept ts s where
  ids := k.ids
  born := k.born
  count := k.count
  owned := fun u hu => k.owned u (List.mem_cons_of_mem t hu)
  numbered := fun u hu => k.numbered u (List.mem_cons_of_mem t hu)
  distinct := (List.nodup_cons.1 k.distinct).2
  ends := by
    intro h hh
    refine (List.mem_cons.1 (k.ends h hh)).resolve_left ?_
    rintro rfl
    cases (idle h hh rfl).1
  phase := by
    intro h hh
    rcases k.phase h hh with ⟨waits, timer⟩ | ⟨rises, spent⟩
    · refine Or.inl ⟨waits, (List.mem_cons.1 timer).resolve_left ?_⟩
      rintro rfl
      exact (idle h hh rfl).2 waits.phase
    · exact Or.inr ⟨rises, fun u hu => spent u (List.mem_cons_of_mem t hu)⟩

/-- Taking a heart out leaves the others as they are. -/
theorem remove (k : Kept pending s) (id : Nat) : Kept pending (s.remove id) where
  ids := k.ids.sublist (List.filter_sublist.map _)
  born := fun h hh => k.born h (mem_remove.1 hh).1
  count := k.count
  owned := k.owned
  numbered := k.numbered
  distinct := k.distinct
  ends := fun h hh => k.ends h (mem_remove.1 hh).1
  phase := fun h hh => k.phase h (mem_remove.1 hh).1

/-- The timer that finds a waiting heart is the one that heart was given. -/
theorem eq_riseTimer (k : Kept pending s) {h : Heart} (ht : t ∈ pending)
    (effect : t.effect = .rise) (hh : h ∈ s.live) (same : t.heart = h.id) :
    h.Waiting ∧ t = h.riseTimer s.effects.timing := by
  rcases k.phase h hh with ⟨waits, timer⟩ | ⟨-, spent⟩
  · exact ⟨waits, k.unique ht timer same effect⟩
  · exact absurd same (spent t ht effect)

theorem eq_endTimer (k : Kept pending s) {h : Heart} (ht : t ∈ pending)
    (effect : t.effect = .expire) (hh : h ∈ s.live) (same : t.heart = h.id) :
    t = h.endTimer s.effects.timing :=
  k.unique ht (k.ends h hh) same effect

/-- Raising a heart takes its timer off the list. -/
theorem rise (k : Kept (t :: ts) s) {heart : Heart} (effect : t.effect = .rise)
    (mem : heart ∈ s.live) (same : heart.id = t.heart) (target : Point) (w : WordSource) :
    Kept ts { s.replace (heart.risen t.due target) with source := w } := by
  obtain ⟨-, timer⟩ := k.eq_riseTimer List.mem_cons_self effect mem same.symm
  have others : ∀ {h}, h ∈ (s.replace (heart.risen t.due target)).live →
      (h ∈ s.live ∧ h.id ≠ heart.id) ∨ h = heart.risen t.due target := by
    intro h hh
    exact (mem_replace.1 hh).imp id And.left
  -- a timer behind `t` is not the one that raises this heart
  have fired : ∀ u ∈ ts, u.effect = .rise → u.heart ≠ heart.id := by
    intro u hu rise e
    have twice := k.unique (List.mem_cons_of_mem t hu) List.mem_cons_self (e.trans same)
      (rise.trans effect.symm)
    exact (List.nodup_cons.1 k.distinct).1 (twice ▸ List.mem_map_of_mem hu)
  refine ⟨?_, ?_, k.count, fun u hu => k.owned u (List.mem_cons_of_mem t hu),
    fun u hu => k.numbered u (List.mem_cons_of_mem t hu), (List.nodup_cons.1 k.distinct).2,
    ?_, ?_⟩
  · rw [ids_replace]
    exact k.ids
  · intro h hh
    rcases others hh with ⟨live, -⟩ | rfl
    · exact k.born h live
    · exact k.born heart mem
  · intro h hh
    have kept : h.endTimer s.effects.timing ∈ t :: ts := by
      rcases others hh with ⟨live, -⟩ | rfl
      · exact k.ends h live
      · exact k.ends heart mem
    refine (List.mem_cons.1 kept).resolve_left fun e => ?_
    rw [← e] at effect
    cases effect
  · intro h hh
    rcases others hh with ⟨live, other⟩ | rfl
    · rcases k.phase h live with ⟨waits, kept⟩ | ⟨rises, spent⟩
      · refine Or.inl ⟨waits, (List.mem_cons.1 kept).resolve_left fun e => ?_⟩
        rw [← e] at same
        exact other same.symm
      · exact Or.inr ⟨rises, fun u hu => spent u (List.mem_cons_of_mem t hu)⟩
    · exact Or.inr ⟨⟨rfl, by rw [timer]; rfl⟩, fired⟩

/-- The order in which timers are pending does not matter. -/
theorem perm (k : Kept pending s) (h : pending.Perm ts) : Kept ts s where
  ids := k.ids
  born := k.born
  count := k.count
  owned := fun u hu => k.owned u (h.mem_iff.2 hu)
  numbered := fun u hu => k.numbered u (h.mem_iff.2 hu)
  distinct := (h.map _).nodup_iff.1 k.distinct
  ends := fun g hg => h.mem_iff.1 (k.ends g hg)
  phase := by
    intro g hg
    rcases k.phase g hg with ⟨waits, timer⟩ | ⟨rises, spent⟩
    · exact Or.inl ⟨waits, h.mem_iff.1 timer⟩
    · exact Or.inr ⟨rises, fun u hu => spent u (h.mem_iff.2 hu)⟩

/-- Timers queued before have numbers below the next one. -/
theorem seq_lt (k : Kept pending s) (ht : t ∈ pending) : t.seq < 2 * s.nextId := by
  have owned := k.owned t ht
  have numbered := k.numbered t ht
  have rank := t.effect.rank_lt
  rw [Timer.Numbered] at numbered
  omega

/-- **A heart that is born keeps the books**, if it has the next number, waits, and brings
its two timers along. -/
theorem bear (k : Kept pending s) {heart : Heart} (number : heart.id = s.nextId)
    (waits : heart.Waiting) (agenda : Agenda) (w : WordSource) :
    Kept (heart.endTimer s.effects.timing :: heart.riseTimer s.effects.timing :: pending)
      { s with
        source := w
        live := s.live ++ [heart]
        agenda := agenda
        nextSeq := s.nextSeq + 2
        nextId := s.nextId + 1 } := by
  have count := k.count
  have live : ∀ {g}, g ∈ s.live ++ [heart] → g ∈ s.live ∨ g = heart := by
    intro g hg
    rwa [List.mem_append, List.mem_singleton] at hg
  have pends : ∀ {u}, u ∈ pending →
      u ∈ heart.endTimer s.effects.timing :: heart.riseTimer s.effects.timing :: pending :=
    fun hu => List.mem_cons_of_mem _ (List.mem_cons_of_mem _ hu)
  constructor
  · rw [List.map_append, List.map_singleton, List.pairwise_append]
    refine ⟨k.ids, List.pairwise_singleton _ _, fun i hi j hj => ?_⟩
    obtain ⟨g, hg, rfl⟩ := List.mem_map.1 hi
    rw [List.mem_singleton.1 hj, number]
    exact k.born g hg
  · intro g hg
    rcases live hg with hg | rfl
    · exact Nat.lt_succ_of_lt (k.born g hg)
    · exact Nat.lt_succ_of_le (Nat.le_of_eq number)
  · dsimp only
    omega
  · refine List.forall_mem_cons.2 ⟨?_, List.forall_mem_cons.2 ⟨?_, fun u hu => ?_⟩⟩
    · exact Nat.lt_succ_of_le (Nat.le_of_eq number)
    · exact Nat.lt_succ_of_le (Nat.le_of_eq number)
    · exact Nat.lt_succ_of_lt (k.owned u hu)
  · exact List.forall_mem_cons.2 ⟨rfl, List.forall_mem_cons.2 ⟨rfl, k.numbered⟩⟩
  · -- both new numbers are above those in use
    have older : ∀ i ∈ pending.map (·.seq), i < 2 * heart.id := by
      intro i hi
      obtain ⟨u, hu, rfl⟩ := List.mem_map.1 hi
      rw [number]
      exact k.seq_lt hu
    rw [List.map_cons, List.map_cons, List.nodup_cons, List.nodup_cons, List.mem_cons]
    refine ⟨?_, ?_, k.distinct⟩
    · rintro (e | hi)
      · exact absurd e (Nat.succ_ne_self _)
      · exact absurd (older _ hi) (Nat.not_lt.2 (Nat.le_succ _))
    · exact fun hi => absurd (older _ hi) (Nat.lt_irrefl _)
  · intro g hg
    rcases live hg with hg | rfl
    · exact pends (k.ends g hg)
    · exact List.mem_cons_self
  · intro g hg
    rcases live hg with hg | rfl
    · rcases k.phase g hg with ⟨waiting, timer⟩ | ⟨rises, spent⟩
      · exact Or.inl ⟨waiting, pends timer⟩
      · refine Or.inr ⟨rises, List.forall_mem_cons.2 ⟨(nomatch ·),
          List.forall_mem_cons.2 ⟨fun _ e => ?_, spent⟩⟩⟩
        -- the new timer is of a heart with a larger number
        have older := k.born g hg
        rw [← number] at older
        exact absurd e (Nat.ne_of_gt older)
    · exact Or.inl ⟨waits, List.mem_cons_of_mem _ List.mem_cons_self⟩

/-- **Firing a timer keeps the books.** -/
theorem fire (k : Kept (t :: ts) s) (hf : Fires t s events s') : Kept ts s' := by
  cases hf with
  | rises effect found waits =>
      obtain ⟨mem, same⟩ := mem_of_get? found
      exact k.rise effect mem same _ _
  | ends effect found =>
      refine (k.remove t.heart).tail fun h hh same => ?_
      exact absurd same.symm (mem_remove.1 hh).2
  | late effect risen =>
      refine k.tail fun h hh same => ⟨effect, risen h ?_⟩
      rw [same]
      exact k.get?_eq hh
  | gone effect absent =>
      refine k.tail fun h hh same => ?_
      exact absurd same.symm (get?_eq_none_iff.1 absent h hh)

/-- Firing timers one after the other keeps the books. -/
theorem fireAll {rest : List Timer} (k : Kept (ts ++ rest) s)
    (hf : Show.fireAll ts s = .ok (events, s')) : Kept rest s' := by
  -- the timers fired leave the list one by one, and `rest` is never touched
  induction ts generalizing s events with
  | nil =>
      cases hf
      exact k
  | cons t ts ih =>
      obtain ⟨first, s₁, more, ht, hts, -⟩ := fireAll_cons.1 hf
      exact ih (k.fire (fires_of_fire ht)) hts

end Kept

/-! ### What timers do not touch -/

/-- Everything but the live hearts and the source of words. -/
structure SameFrame (s s' : Show) : Prop where
  effects : s'.effects = s.effects
  agenda : s'.agenda = s.agenda
  nextSeq : s'.nextSeq = s.nextSeq
  nextId : s'.nextId = s.nextId

theorem SameFrame.trans {s₁ : Show} (h : SameFrame s s₁) (h' : SameFrame s₁ s') :
    SameFrame s s' where
  effects := h'.effects.trans h.effects
  agenda := h'.agenda.trans h.agenda
  nextSeq := h'.nextSeq.trans h.nextSeq
  nextId := h'.nextId.trans h.nextId

theorem Fires.sameFrame (hf : Fires t s events s') : SameFrame s s' := by
  cases hf <;> exact ⟨rfl, rfl, rfl, rfl⟩

theorem sameFrame_fireAll (hf : fireAll ts s = .ok (events, s')) : SameFrame s s' := by
  induction ts generalizing s events with
  | nil =>
      cases hf
      exact ⟨rfl, rfl, rfl, rfl⟩
  | cons t ts ih =>
      obtain ⟨first, s₁, more, ht, hts, -⟩ := fireAll_cons.1 hf
      exact (fires_of_fire ht).sameFrame.trans (ih hts)

/-- What is left on the agenda after an advance is due later. -/
theorem agenda_advance {now : Int} (h : s.advance now = .ok (events, s')) :
    s'.agenda = s.agenda.after now :=
  (sameFrame_fireAll h).agenda

namespace Steady

/-! ### Every action keeps the books -/

/-- While the timers that are due are being fired, they and those left on the agenda are
pending. -/
theorem kept_due (k : Steady s) (now : Int) :
    Kept (s.agenda.due now ++ (s.agenda.after now).timers)
      { s with agenda := s.agenda.after now } := by
  rw [Agenda.due_append_after]
  exact { k with }

theorem advance (k : Steady s) {now : Int} (h : s.advance now = .ok (events, s')) :
    Steady s' := by
  rw [Steady, agenda_advance h]
  exact (k.kept_due now).fireAll h

theorem cancel (k : Steady s) (id : Nat) : Steady (s.cancel id).2 := Kept.remove k id

/-- A heart is born with the next number, and its timers take the next two. -/
theorem release (k : Steady s) {origin : Point} {now : Int}
    (h : s.release origin now (now + s.effects.timing.riseSpan)
      (now + s.effects.timing.lifeSpan) = .ok s') : Steady s' := by
  obtain ⟨heart, w, number, rfl, waits, rfl⟩ := release_eq_ok h
  have rise : (⟨heart.createdAt + s.effects.timing.riseSpan, s.nextSeq, s.nextId, .rise⟩ :
      Timer) = heart.riseTimer s.effects.timing := by
    rw [k.count, ← number]
    rfl
  have finish : (⟨heart.createdAt + s.effects.timing.lifeSpan, s.nextSeq + 1, s.nextId,
      .expire⟩ : Timer) = heart.endTimer s.effects.timing := by
    rw [k.count, ← number]
    rfl
  rw [rise, finish]
  refine Kept.perm (k.bear number waits _ w) ?_
  have first := Agenda.perm_place (heart.riseTimer s.effects.timing) s.agenda.timers
  exact ((Agenda.perm_place _ _).trans (first.cons _)).symm

/-- So do all the hearts of a burst, one after the other. -/
theorem releaseMany (k : Steady s) {origin : Point} {now : Int} {n : Nat}
    (h : s.releaseMany origin now (now + s.effects.timing.riseSpan)
      (now + s.effects.timing.lifeSpan) n = .ok s') : Steady s' := by
  induction n generalizing s with
  | zero =>
      cases h
      exact k
  | succ n ih =>
      obtain ⟨s₁, first, rest⟩ := bind_eq_ok_iff.1 h
      -- the next heart is released under the same settings
      have same : s₁.effects = s.effects := by
        obtain ⟨heart, w, -, -, -, rfl⟩ := release_eq_ok first
        rfl
      rw [← same] at rest
      exact ih (k.release first) rest

/-- **Every action keeps the books.** -/
theorem act (k : Steady s) {a : Action} (h : s.act a = .ok (events, s')) : Steady s' := by
  cases a with
  | burst origin now => exact k.releaseMany (releaseMany_of_burst (act_burst.1 h).1)
  | advance now => exact k.advance h
  | cancel id =>
      cases h
      exact k.cancel id

/-- Any history keeps them. -/
theorem run (k : Steady s) {history : List Action} (h : s.run history = .ok (events, s')) :
    Steady s' := by
  induction history generalizing s events with
  | nil =>
      cases h
      exact k
  | cons a as ih =>
      obtain ⟨first, s₁, more, ha, has, -⟩ := run_cons.1 h
      exact ih (k.act ha) has

end Steady

end Show

end HeartKeypad
