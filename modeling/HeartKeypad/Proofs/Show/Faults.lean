import HeartKeypad.Time.Timestamp
import HeartKeypad.Proofs.Number.Negation
import HeartKeypad.Proofs.Show.Chronicle

/-!
# When a show is at fault

A show under valid settings, asked for anything at ordinary instants, can only be at fault
for a random range that is too wide.  A draw divides the width of its range by `topFraction`,
which is a little less than one, and what is tested is that the quotient is finite.  The rules
bound the offsets from below and ask that they be finite; they do not ask that twice an offset
be finite, which is the width of the range that it is drawn from, and still less the quotient.

* `Effects.Drawable` — all ranges that a show draws from can be drawn from: the width of each,
  divided by `topFraction`, is finite.
* `Show.run_succeeds_iff_drawable` — under valid settings, every history at ordinary instants
  succeeds iff the settings are drawable.
* `Show.overwide_offset_faults` — settings that are valid and not drawable.

### The other faults

A span could only fail at a word that the rules exclude (`Span.ofWord_of_le`), and an instant
only at the end of the calendar, which is a minute away from no ordinary instant
(`Instant.later_of_ordinary`).
-/

namespace HeartKeypad

/-! ### Draws -/

namespace WordSource

/-- **A range can be drawn from**: its width, divided by `topFraction`, is finite. -/
def Range (low high : Float) : Prop := ((high - low) / topFraction).isFinite = true

/-- An offset can be drawn: there is none, or its range can be drawn from. -/
def Spread (spread : Float) : Prop := 0.0 < spread → Range (-spread) spread

instance (low high : Float) : Decidable (Range low high) := inferInstanceAs (Decidable (_ = _))

instance (spread : Float) : Decidable (Spread spread) := inferInstanceAs (Decidable (_ → _))

variable {low high spread : Float} {w : WordSource}

/-- A range that can be drawn from has a finite width. -/
theorem Range.isFinite_width (h : Range low high) : (high - low).isFinite = true :=
  (Double.isFinite_of_div (Double.isFinite_of_pack h)).1

/-- A finite width is not enough: half the largest double is an offset whose range is as wide as
the largest double, and cannot be drawn from. -/
example : (Float.ofBits 0x7fdfffffffffffff - -Float.ofBits 0x7fdfffffffffffff).isFinite = true ∧
    ¬ Spread (Float.ofBits 0x7fdfffffffffffff) := by decide

/-- Whether a double can be drawn is not for the words to say. -/
theorem exists_uniform_iff : (∃ r, w.uniform low high = .ok r) ↔ Range low high := by
  unfold uniform Range
  dsimp only
  constructor
  · rintro ⟨r, h⟩
    split at h
    · assumption
    · cases h
  · intro finite
    rw [if_pos finite]
    exact ⟨_, rfl⟩

theorem exists_jitter_iff : (∃ r, w.jitter spread = .ok r) ↔ Spread spread := by
  unfold jitter Spread
  by_cases positive : 0.0 < spread
  · simp only [positive, if_true, forall_const]
    exact exists_uniform_iff
  · simp only [positive, if_false, false_implies, iff_true]
    exact ⟨_, rfl⟩

end WordSource

open WordSource (Range Spread)

/-- What a burst draws can be drawn. -/
structure Burst.Drawable (b : Burst) : Prop where
  x : Spread b.jitterX
  y : Spread b.jitterY
  size : b.sizeMin < b.sizeMax → Range b.sizeMin b.sizeMax

/-- What a rise draws can be drawn. -/
structure Rise.Drawable (r : Rise) : Prop where
  x : Spread r.jitterX
  y : Spread r.jitterY

/-- **All ranges that a show draws from can be drawn from**: those of the four offsets and that of
the sizes, each with a finite width even when divided by `topFraction`. -/
structure Effects.Drawable (e : Effects) : Prop where
  burst : e.burst.Drawable
  rise : e.rise.Drawable

instance (b : Burst) : Decidable b.Drawable :=
  decidable_of_iff (Spread b.jitterX ∧ Spread b.jitterY ∧
      (b.sizeMin < b.sizeMax → Range b.sizeMin b.sizeMax))
    ⟨fun ⟨x, y, size⟩ => ⟨x, y, size⟩, fun ⟨x, y, size⟩ => ⟨x, y, size⟩⟩

instance (r : Rise) : Decidable r.Drawable :=
  decidable_of_iff (Spread r.jitterX ∧ Spread r.jitterY)
    ⟨fun ⟨x, y⟩ => ⟨x, y⟩, fun ⟨x, y⟩ => ⟨x, y⟩⟩

instance (e : Effects) : Decidable e.Drawable :=
  decidable_of_iff (e.burst.Drawable ∧ e.rise.Drawable)
    ⟨fun ⟨burst, rise⟩ => ⟨burst, rise⟩, fun ⟨burst, rise⟩ => ⟨burst, rise⟩⟩

/-! ### Ordinary instants -/

/-- The instant at which a date begins. -/
def Date.start (d : Date) : Int := d.toDays * 86400000000000

/-- The instants from the year -200000 to the year 200000. -/
def Instant.Ordinary (t : Int) : Prop :=
  Date.start ⟨-200000, 1, 1⟩ ≤ t ∧ t < Date.start ⟨200001, 1, 1⟩

theorem Instant.ordinary_iff {t : Int} : Instant.Ordinary t ↔
    -6373557619200000000000 ≤ t ∧ t < 6249254803200000000000 := by
  have first : Date.start ⟨-200000, 1, 1⟩ = -6373557619200000000000 := by decide
  have last : Date.start ⟨200001, 1, 1⟩ = 6249254803200000000000 := by decide
  rw [Ordinary, first, last]

/-- The calendar does not end within a lifetime of an ordinary instant. -/
theorem Instant.later_of_ordinary {t : Int} (ordinary : Ordinary t) {w : UInt64}
    (h : w ≤ Timing.longestLifetime) :
    Instant.later t w.toNat = .ok (t + w.toNat * 1000000) := by
  have short : w.toNat ≤ 60000 := UInt64.le_iff_toNat_le.1 h
  rw [ordinary_iff] at ordinary
  rw [Instant.later, Instant.after, if_pos]
  unfold earliest latest
  omega

namespace Show

/-- An action at an ordinary instant, if at any. -/
def Action.Ordinary : Action → Prop
  | .burst _ now => Instant.Ordinary now
  | .advance now => Instant.Ordinary now
  | .cancel _ => True

variable {s s' : Show} {events : List Event} {t : Timer} {ts : List Timer}

/-! ### What can be drawn -/

theorem exists_drawPoint_iff {x y spreadX spreadY : Float} {w : WordSource} :
    (∃ r, drawPoint x y spreadX spreadY w = .ok r) ↔ Spread spreadX ∧ Spread spreadY := by
  unfold drawPoint
  constructor
  · rintro ⟨r, h⟩
    obtain ⟨⟨dx, w₁⟩, hx, h⟩ := bind_eq_ok_iff.1 h
    obtain ⟨⟨dy, w₂⟩, hy, -⟩ := bind_eq_ok_iff.1 h
    exact ⟨WordSource.exists_jitter_iff.1 ⟨_, hx⟩, WordSource.exists_jitter_iff.1 ⟨_, hy⟩⟩
  · rintro ⟨hx, hy⟩
    obtain ⟨⟨dx, w₁⟩, hx⟩ := WordSource.exists_jitter_iff (w := w).2 hx
    obtain ⟨⟨dy, w₂⟩, hy⟩ := WordSource.exists_jitter_iff (w := w₁).2 hy
    exact ⟨_, bind_eq_ok_iff.2 ⟨_, hx, bind_eq_ok_iff.2 ⟨_, hy, rfl⟩⟩⟩

theorem exists_drawSize_iff {b : Burst} {w : WordSource} :
    (∃ r, drawSize b w = .ok r) ↔ (b.sizeMin < b.sizeMax → Range b.sizeMin b.sizeMax) := by
  unfold drawSize
  by_cases wide : b.sizeMin < b.sizeMax
  · simp only [wide, if_true, forall_const]
    exact WordSource.exists_uniform_iff
  · simp only [wide, if_false, false_implies, iff_true]
    exact ⟨_, rfl⟩

/-- A heart can be released iff what a burst draws can be drawn. -/
theorem exists_release_iff {origin : Point} {now riseAt endAt : Int} :
    (∃ s', s.release origin now riseAt endAt = .ok s') ↔ s.effects.burst.Drawable := by
  unfold release
  constructor
  · rintro ⟨s', h⟩
    obtain ⟨⟨position, w₁⟩, hposition, h⟩ := bind_eq_ok_iff.1 h
    obtain ⟨⟨size, w₂⟩, hsize, -⟩ := bind_eq_ok_iff.1 h
    obtain ⟨x, y⟩ := exists_drawPoint_iff.1 ⟨_, hposition⟩
    exact ⟨x, y, exists_drawSize_iff.1 ⟨_, hsize⟩⟩
  · rintro ⟨x, y, size⟩
    obtain ⟨⟨position, w₁⟩, hposition⟩ := exists_drawPoint_iff (x := origin.x) (y := origin.y)
      (w := s.source).2 ⟨x, y⟩
    obtain ⟨⟨size, w₂⟩, hsize⟩ := exists_drawSize_iff (w := w₁).2 size
    exact ⟨_, bind_eq_ok_iff.2 ⟨_, hposition, bind_eq_ok_iff.2 ⟨_, hsize, rfl⟩⟩⟩

/-! ### Every action succeeds -/

theorem exists_releaseMany (drawable : s.effects.burst.Drawable) (origin : Point)
    (now riseAt endAt : Int) (n : Nat) :
    ∃ s', s.releaseMany origin now riseAt endAt n = .ok s' := by
  induction n generalizing s with
  | zero => exact ⟨s, rfl⟩
  | succ n ih =>
      obtain ⟨s₁, first⟩ := exists_release_iff.2 drawable
      have same : s₁.effects = s.effects := by
        obtain ⟨heart, w, -, -, -, rfl⟩ := release_eq_ok first
        rfl
      rw [← same] at drawable
      obtain ⟨s₂, rest⟩ := ih drawable
      exact ⟨s₂, bind_eq_ok_iff.2 ⟨s₁, first, rest⟩⟩

/-- At an ordinary instant a burst can only fail in its draws. -/
theorem exists_burst (valid : s.effects.Valid) (drawable : s.effects.burst.Drawable)
    {now : Int} (ordinary : Instant.Ordinary now) (origin : Point) :
    ∃ s', s.burst origin now = .ok s' := by
  have delay := Span.ofWord_of_le valid.riseDelay_le
  have rise := Instant.later_of_ordinary ordinary valid.riseDelay_le
  have lifetime := Span.ofWord_of_le valid.lifetime_le
  have finish := Instant.later_of_ordinary ordinary valid.lifetime_le
  obtain ⟨s', released⟩ := exists_releaseMany drawable origin now
    (now + s.effects.timing.riseDelay.toNat * 1000000)
    (now + s.effects.timing.lifetime.toNat * 1000000) s.effects.burst.count.toNat
  exact ⟨s', bind_eq_ok_iff.2 ⟨_, delay, bind_eq_ok_iff.2 ⟨_, rise, bind_eq_ok_iff.2
    ⟨_, lifetime, bind_eq_ok_iff.2 ⟨_, finish, released⟩⟩⟩⟩⟩

/-- Firing a timer draws at most a target. -/
theorem exists_fire (drawable : s.effects.rise.Drawable) (t : Timer) :
    ∃ r, s.fire t = .ok r := by
  cases effect : t.effect with
  | rise =>
      rcases s.waiting_or_late t.heart with ⟨heart, found, waits⟩ | late
      · obtain ⟨p, drawn⟩ := exists_drawPoint_iff (x := heart.position.x)
          (y := s.effects.rise.topOffset) (w := s.source).2 ⟨drawable.x, drawable.y⟩
        rw [fire_of_waiting effect found waits]
        exact ⟨_, bind_eq_ok_iff.2 ⟨p, drawn, rfl⟩⟩
      · exact ⟨_, fire_of_late effect late⟩
  | expire =>
      cases found : s.get? t.heart with
      | none => exact ⟨_, fire_of_gone found⟩
      | some heart => exact ⟨_, fire_of_live effect found⟩

theorem exists_fireAll (drawable : s.effects.rise.Drawable) (ts : List Timer) :
    ∃ r, fireAll ts s = .ok r := by
  induction ts generalizing s with
  | nil => exact ⟨_, rfl⟩
  | cons t ts ih =>
      obtain ⟨⟨first, s₁⟩, ht⟩ := exists_fire drawable t
      rw [← (fires_of_fire ht).sameFrame.effects] at drawable
      obtain ⟨⟨more, s₂⟩, hts⟩ := ih drawable
      exact ⟨_, fireAll_cons.2 ⟨first, s₁, more, ht, hts, rfl⟩⟩

theorem exists_act (valid : s.effects.Valid) (drawable : s.effects.Drawable) {a : Action}
    (ordinary : a.Ordinary) : ∃ r, s.act a = .ok r := by
  cases a with
  | burst origin now =>
      obtain ⟨s', born⟩ := exists_burst valid drawable.burst ordinary origin
      exact ⟨([], s'), act_burst.2 ⟨born, rfl⟩⟩
  | advance now =>
      have still : ({ s with agenda := s.agenda.after now } : Show).effects.rise.Drawable :=
        drawable.rise
      exact exists_fireAll still (s.agenda.due now)
  | cancel id => exact ⟨_, rfl⟩

/-- **A history at ordinary instants succeeds**, if the settings are valid and drawable. -/
theorem exists_run (k : Steady s) (valid : s.effects.Valid) (drawable : s.effects.Drawable)
    {history : List Action} (ordinary : ∀ a ∈ history, a.Ordinary) :
    ∃ r, s.run history = .ok r := by
  induction history generalizing s with
  | nil => exact ⟨_, rfl⟩
  | cons a as ih =>
      obtain ⟨now, later⟩ := List.forall_mem_cons.1 ordinary
      obtain ⟨⟨first, s₁⟩, ha⟩ := exists_act valid drawable now
      rw [← (Carried.act k ha).effects] at valid drawable
      obtain ⟨⟨more, s₂⟩, has⟩ := ih (k.act ha) valid drawable later
      exact ⟨_, run_cons.2 ⟨first, s₁, more, ha, has, rfl⟩⟩

/-! ### Nothing less will do -/

/-- A heart that was reported to rise has drawn its target. -/
theorem rise_drawable_of_fire (h : s.fire t = .ok (events, s')) {id : Nat} {target : Point}
    (rose : .rose id target ∈ events) : s.effects.rise.Drawable := by
  cases fires_of_fire h with
  | rises effect found waits =>
      rw [fire_of_waiting effect found waits] at h
      obtain ⟨p, drawn, -⟩ := bind_eq_ok_iff.1 h
      obtain ⟨x, y⟩ := exists_drawPoint_iff.1 ⟨p, drawn⟩
      exact ⟨x, y⟩
  | ends effect found => cases List.mem_singleton.1 rose
  | late effect risen => cases rose
  | gone effect absent => cases rose

theorem rise_drawable_of_fireAll (h : fireAll ts s = .ok (events, s')) {id : Nat}
    {target : Point} (rose : .rose id target ∈ events) : s.effects.rise.Drawable := by
  induction ts generalizing s events with
  | nil =>
      cases h
      cases rose
  | cons t ts ih =>
      obtain ⟨first, s₁, more, ht, hts, rfl⟩ := fireAll_cons.1 h
      rcases List.mem_append.1 rose with now | later
      · exact rise_drawable_of_fire ht now
      · rw [← (fires_of_fire ht).sameFrame.effects]
        exact ih hts later

/-- A burst that succeeds has drawn what a burst draws. -/
theorem burst_drawable_of_burst (valid : s.effects.Valid) {origin : Point} {now : Int}
    (h : s.burst origin now = .ok s') : s.effects.burst.Drawable := by
  have released := releaseMany_of_burst h
  cases count : s.effects.burst.count.toNat with
  | zero => exact absurd (UInt64.toNat_inj.1 count) valid.hearts
  | succ n =>
      rw [count] at released
      obtain ⟨s₁, first, -⟩ := bind_eq_ok_iff.1 released
      exact exists_release_iff.1 ⟨s₁, first⟩

/-- Once the first hearts have risen, a rise has been drawn. -/
theorem rise_drawable_of_run {e : Effects} (valid : e.Valid) {source : WordSource}
    {origin : Point} (h : (new e source).run [.burst origin 0, .advance e.timing.riseSpan] =
      .ok (events, s')) : e.rise.Drawable := by
  have spans := valid.riseSpan_lt_lifeSpan
  have k := steady_new e source
  obtain ⟨first, s₁, more, hburst, hrest, rfl⟩ := run_cons.1 h
  have k₁ := k.act hburst
  obtain ⟨born, count, bears⟩ := bears_of_burst (act_burst.1 hburst).1
  have effects : s₁.effects = e := bears.effects
  -- there is a heart, since a valid burst is not empty
  have some : 0 < born.length := by
    rw [count]
    exact Nat.pos_of_ne_zero fun zero => valid.hearts (UInt64.toNat_inj.1 zero)
  obtain ⟨b, hb⟩ := List.exists_mem_of_length_pos some
  have mem : b ∈ s₁.live := bears.live ▸ List.mem_append_right _ hb
  -- when the rise is reached, the end is not, so the heart is live and rises
  have fate := fate_of_run k₁ mem (bears.waiting b hb) hrest
  have risen : Reached [.advance e.timing.riseSpan] (b.riseAt s₁.effects.timing) := by
    rw [reached_advance, effects, Heart.riseAt, bears.createdAt b hb]
    omega
  have alive : ¬ Reached [.advance e.timing.riseSpan] (b.endAt s₁.effects.timing) := by
    rw [reached_advance, effects, Heart.endAt, bears.createdAt b hb]
    omega
  obtain ⟨g, found⟩ := Option.isSome_iff_exists.1 (fate.live_iff.2 ⟨by simp, alive⟩)
  have rises := fate.rising risen g found
  obtain ⟨now, s₂, nothing, hadvance, hend, rfl⟩ := run_cons.1 hrest
  cases hend
  -- so the advance has reported it
  have empty : Chronicle [] s₁ := by
    have told := (chronicle_new e source).act k spans hburst
    rwa [(act_burst.1 hburst).2] at told
  have told := empty.advance k₁ (effects ▸ spans) hadvance
  have rose := (told.announced g (mem_of_get? found).1 rises.phase).1
  have drawn := rise_drawable_of_fireAll hadvance rose
  exact effects ▸ drawn

/-! ### The settings under which nothing fails -/

/-- **Under valid settings, every history at ordinary instants succeeds iff the settings are
drawable**, that is, iff the width of every range that a show draws from is finite when divided
by `topFraction`. -/
theorem run_succeeds_iff_drawable {e : Effects} (valid : e.fault? = none) :
    (∀ source history, (∀ a ∈ history, a.Ordinary) →
      ∃ r, (new e source).run history = .ok r) ↔ e.Drawable := by
  have v := Effects.fault?_eq_none_iff.1 valid
  constructor
  · intro succeeds
    have start : Instant.Ordinary 0 := Instant.ordinary_iff.2 (by omega)
    have rise : Instant.Ordinary e.timing.riseSpan := by
      have short : e.timing.riseDelay.toNat ≤ 60000 := UInt64.le_iff_toNat_le.1 v.riseDelay_le
      rw [Instant.ordinary_iff, Timing.riseSpan, Timing.toInt_toInt64 v.riseDelay_le]
      omega
    obtain ⟨⟨events, s'⟩, h⟩ := succeeds ⟨[], 0⟩
      [.burst ⟨0.0, 0.0⟩ 0, .advance e.timing.riseSpan] (by simp [Action.Ordinary, start, rise])
    obtain ⟨first, s₁, more, hburst, -, -⟩ := run_cons.1 h
    exact ⟨burst_drawable_of_burst v (act_burst.1 hburst).1, rise_drawable_of_run v h⟩
  · intro drawable source history ordinary
    exact exists_run (steady_new e source) v drawable ordinary

/-- The default settings, a burst, and an advance past its end. -/
theorem default_run_succeeds :
    ({} : Effects).fault? = none ∧ ∃ r, (new {} ⟨[], 7⟩).run
      [.burst ⟨180.0, 320.0⟩ 0, .advance 1000000000] = .ok r := by
  have valid : ({} : Effects).fault? = none := by decide
  have drawable : ({} : Effects).Drawable := by decide
  refine ⟨valid, (run_succeeds_iff_drawable valid).2 drawable ⟨[], 7⟩ _ ?_⟩
  simp [Action.Ordinary, Instant.ordinary_iff]

/-- Settings with an offset that is finite, while twice the offset is not. -/
def overwide : Effects where
  burst := { jitterX := Float.ofBits 0x7fe1ccf385ebc8a0 }

/-- **The rules let an offset pass that cannot be drawn.** -/
theorem overwide_offset_faults : overwide.fault? = none ∧
    (new overwide ⟨[], 0⟩).run [.burst ⟨0.0, 0.0⟩ 0] = .error .range := by
  refine ⟨by decide, rfl⟩

end Show

end HeartKeypad
