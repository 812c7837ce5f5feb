import HeartKeypad.Settings.Basic
import HeartKeypad.Proofs.Show.History

/-!
# Settings of a show that break no rule

`Effects.fault?` tries the rules one after the other and reports the first that is broken.
`Effects.Valid` is what holds when none is: every rule at once, with no order among them.

* `Effects.fault?_eq_none_iff` — no fault is reported iff all rules are kept.
* `Effects.Valid.riseSpan_lt_lifeSpan` — hearts rise before they end.

### Spans as words

The rules compare unsigned words, and a show takes them as signed ones.  No lifetime that is
allowed comes near the words where the two differ (`Timing.toInt_toInt64`), so the order of
the words is the order of the spans.
-/

namespace HeartKeypad

/-- An offset that the rules allow. -/
structure Effects.Offset (x : Float) : Prop where
  finite : x.isFinite = true
  nonneg : ¬ x < 0.0

/-- A range of sizes that the rules allow. -/
structure Effects.Sizes (least most : Float) : Prop where
  least_finite : least.isFinite = true
  most_finite : most.isFinite = true
  pos : ¬ least ≤ 0.0
  ordered : ¬ most < least

/-- **Settings that keep every rule.** -/
structure Effects.Valid (e : Effects) : Prop where
  hearts : e.burst.count ≠ 0
  burstX : Offset e.burst.jitterX
  burstY : Offset e.burst.jitterY
  riseX : Offset e.rise.jitterX
  riseY : Offset e.rise.jitterY
  sizes : Sizes e.burst.sizeMin e.burst.sizeMax
  topOffset : e.rise.topOffset.isFinite = true
  rise_lt_end : e.timing.riseDelay < e.timing.lifetime
  lifetime_le : e.timing.lifetime ≤ Timing.longestLifetime
  tick : e.timing.tick ≠ 0

namespace Effects

theorem offsetFault?_eq_none_iff {name : String} {x : Float} :
    offsetFault? name x = none ↔ Offset x := by
  unfold offsetFault?
  constructor
  · intro h
    split at h
    · cases h
    · rename_i fine
      simp only [Bool.or_eq_true, Bool.not_eq_true', decide_eq_true_eq, not_or,
        Bool.not_eq_false] at fine
      exact ⟨fine.1, fine.2⟩
  · rintro ⟨finite, nonneg⟩
    simp [finite, nonneg]

theorem sizesFault?_eq_none_iff {least most : Float} :
    sizesFault? least most = none ↔ Sizes least most := by
  unfold sizesFault?
  constructor
  · intro h
    split at h
    · cases h
    · rename_i fine
      simp only [Bool.or_eq_true, Bool.not_eq_true', decide_eq_true_eq, not_or,
        Bool.not_eq_false] at fine
      exact ⟨fine.1.1.1, fine.1.1.2, fine.1.2, fine.2⟩
  · rintro ⟨least_finite, most_finite, pos, ordered⟩
    simp [least_finite, most_finite, pos, ordered]

/-- **No fault is reported iff all rules are kept.** -/
theorem fault?_eq_none_iff {e : Effects} : e.fault? = none ↔ e.Valid := by
  unfold fault?
  constructor
  · intro h
    split at h
    · cases h
    rename_i hearts
    simp only [Option.or_eq_none_iff, offsetFault?_eq_none_iff, sizesFault?_eq_none_iff] at h
    obtain ⟨burstX, burstY, riseX, riseY, sizes, rest⟩ := h
    split at rest
    · cases rest
    rename_i topOffset
    split at rest
    · cases rest
    rename_i order
    split at rest
    · cases rest
    rename_i long
    split at rest
    · cases rest
    rename_i tick
    exact ⟨hearts, burstX, burstY, riseX, riseY, sizes, by simpa using topOffset,
      UInt64.not_le.1 order, UInt64.not_lt.1 long, tick⟩
  · intro v
    have order : ¬ e.timing.lifetime ≤ e.timing.riseDelay := UInt64.not_le.2 v.rise_lt_end
    have long : ¬ Timing.longestLifetime < e.timing.lifetime := UInt64.not_lt.2 v.lifetime_le
    simp [v.hearts, offsetFault?_eq_none_iff.2 v.burstX, offsetFault?_eq_none_iff.2 v.burstY,
      offsetFault?_eq_none_iff.2 v.riseX, offsetFault?_eq_none_iff.2 v.riseY,
      sizesFault?_eq_none_iff.2 v.sizes, v.topOffset, order, long, v.tick]

end Effects

/-- Settings of the program that break no rule have settings of a show that break none. -/
theorem Settings.valid_of_fault?_eq_none {s : Settings} (h : s.fault? = none) :
    s.effects.Valid := by
  have rest := (Option.or_eq_none_iff.1 h).2
  split at rest
  · cases rest
  · exact Effects.fault?_eq_none_iff.1 (Option.map_eq_none_iff.1 rest)

/-! ### Spans -/

/-- Up to the longest lifetime a word and its signed reading are the same number. -/
theorem Timing.toInt_toInt64 {w : UInt64} (h : w ≤ longestLifetime) :
    w.toInt64.toInt = w.toNat := by
  have small : w.toNat ≤ 60000 := UInt64.le_iff_toNat_le.1 h
  show w.toBitVec.toInt = w.toBitVec.toNat
  refine BitVec.toInt_eq_toNat_of_lt ?_
  show 2 * w.toNat < 2 ^ 64
  omega

/-- Such a word is a span. -/
theorem Span.ofWord_of_le {w : UInt64} (h : w ≤ Timing.longestLifetime) :
    Span.ofWord w = .ok w.toNat := by
  have value := Timing.toInt_toInt64 h
  unfold Span.ofWord
  rw [value]
  have notLeast : ¬ (w.toNat : Int) = -9223372036854775808 := by omega
  simp only [notLeast, if_false]

namespace Effects.Valid

variable {e : Effects}

theorem riseDelay_le (v : e.Valid) : e.timing.riseDelay ≤ Timing.longestLifetime :=
  UInt64.le_trans (UInt64.le_of_lt v.rise_lt_end) v.lifetime_le

/-- **Hearts rise before they end.** -/
theorem riseSpan_lt_lifeSpan (v : e.Valid) : e.timing.riseSpan < e.timing.lifeSpan := by
  have order : e.timing.riseDelay.toNat < e.timing.lifetime.toNat :=
    UInt64.lt_iff_toNat_lt.1 v.rise_lt_end
  rw [Timing.riseSpan, Timing.lifeSpan, Timing.toInt_toInt64 v.riseDelay_le,
    Timing.toInt_toInt64 v.lifetime_le]
  omega

/-- Hearts live for a while. -/
theorem lifeSpan_pos (v : e.Valid) : 0 < e.timing.lifeSpan := by
  have order : e.timing.riseDelay.toNat < e.timing.lifetime.toNat :=
    UInt64.lt_iff_toNat_lt.1 v.rise_lt_end
  rw [Timing.lifeSpan, Timing.toInt_toInt64 v.lifetime_le]
  omega

end Effects.Valid

end HeartKeypad
