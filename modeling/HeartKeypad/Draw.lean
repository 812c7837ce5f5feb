import HeartKeypad.Fault

/-!
# Random draws

A `WordSource` hands out 64-bit words: first those of a list, then the words of a
mixed counter.  Any finite run of draws from any source of words is one from a
source of this form.

* `WordSource.uniform` draws a double between two bounds, with one word.
* `WordSource.third` draws one of three, throwing away words that would favour
  one of them.

### Why drawing one of three ends

The counter steps by an odd number, so it passes through every 64-bit word, and
the word that the mixer makes of zero is accepted.  `WordSource.distance` is the
number of steps that the counter is away from zero.
-/

namespace HeartKeypad

/-- Words to be drawn: listed ones, and then those of a mixed counter. -/
structure WordSource where
  listed : List UInt64
  counter : UInt64
deriving DecidableEq

namespace WordSource

/-- The step of the counter. -/
def stride : UInt64 := 0x9E3779B97F4A7C15

/-- The word made of a value of the counter. -/
def mix (z : UInt64) : UInt64 :=
  let z := (z ^^^ (z >>> 30)) * 0xBF58476D1CE4E5B9
  let z := (z ^^^ (z >>> 27)) * 0x94D049BB133111EB
  z ^^^ (z >>> 31)

/-- The next word, and the source behind it. -/
def next (s : WordSource) : UInt64 × WordSource :=
  match s.listed with
  | w :: ws => (w, ⟨ws, s.counter⟩)
  | [] => (mix (s.counter + stride), ⟨[], s.counter + stride⟩)

/-! ### Doubles in a range -/

/-- The largest multiple of `2^(-52)` below one. -/
def topFraction : Float := Float.ofBits 0x3FEFFFFFFFFFFFFE

/-- The word as a multiple of `2^(-52)` in `[0, 1)`, from its upper 52 bits. -/
def fraction (w : UInt64) : Float :=
  Float.ofBits ((0x3FF0000000000000 : UInt64) ||| (w >>> 12)) - 1.0

/-- The largest double, not above the one with the given bits, that does not take
`topFraction` above `high`. -/
def fitScale (low high : Float) : Nat → Float
  | 0 => 0.0
  | n + 1 =>
    let scale := Float.ofBits (UInt64.ofNat (n + 1))
    if high < scale * topFraction + low then fitScale low high n else scale

/-- A double between two bounds, both included, from one word.  The width of the
range, divided by `topFraction`, must be finite. -/
def uniform (low high : Float) (s : WordSource) : Except Fault (Float × WordSource) :=
  let widest := (high - low) / topFraction
  if widest.isFinite then
    let scale := fitScale low high widest.toBits.toNat
    let (w, rest) := s.next
    .ok (fraction w * scale + low, rest)
  else .error .range

/-- An offset of at most `spread` in either direction; none at all, and no word
drawn, unless the spread is positive. -/
def jitter (spread : Float) (s : WordSource) : Except Fault (Float × WordSource) :=
  if 0.0 < spread then s.uniform (-spread) spread else .ok (0.0, s)

/-! ### One of three -/

/-- The inverse of the stride. -/
def strideInverse : UInt64 := 0xF1DE83E19937733D

/-- The number of steps after which a counter is zero, at least one. -/
def stepsToZero (c : UInt64) : Nat :=
  let d := ((0 - c) * strideInverse).toNat
  if d = 0 then UInt64.size else d

/-- A word is accepted if the low half of its triple leaves every third equally
many words. -/
def accepted (w : UInt64) : Bool :=
  decide (w.toNat * 3 % UInt64.size ≤ 0xBFFFFFFFFFFFFFFF)

theorem accepted_mix_zero : accepted (mix 0) = true := by decide

theorem stepsToZero_lt {c : UInt64} (h : c + stride ≠ 0) :
    stepsToZero (c + stride) < stepsToZero c := by
  have one : stride * strideInverse = 1 := by decide
  have step : (0 - (c + stride)) * strideInverse = (0 - c) * strideInverse - 1 := by
    rw [← one]; grind
  have back : ∀ t : UInt64, (0 - t) * strideInverse = 0 → t = 0 := by
    intro t ht
    have : (0 - t) * strideInverse * stride = 0 := by rw [ht]; simp
    have e : (0 - t) * strideInverse * stride = 0 - t * (stride * strideInverse) := by grind
    rw [e, one] at this
    grind
  have away : (0 - (c + stride)) * strideInverse ≠ 0 := fun e => h (back _ e)
  simp only [stepsToZero]
  rw [step] at away ⊢
  generalize (0 - c) * strideInverse = d at *
  have hd : (d - 1).toNat ≠ 0 := by
    intro e
    exact away (UInt64.toNat_inj.1 (by simpa using e))
  have lt := d.toNat_lt
  have lt' := (d - 1).toNat_lt
  rw [if_neg hd]
  split
  · exact lt'
  · rename_i hd0
    have : (d - 1).toNat = d.toNat - 1 := by
      rw [UInt64.toNat_sub_of_le]
      · rfl
      · rw [UInt64.le_iff_toNat_le]
        have : (1 : UInt64).toNat = 1 := rfl
        omega
    omega

/-- One of three with equal chances, by the high half of a word's triple. -/
def third (s : WordSource) : Fin 3 × WordSource :=
  let w := s.next.1
  if accepted w then
    (⟨w.toNat * 3 / UInt64.size, by
        have := w.toNat_lt
        simp only [UInt64.size]
        omega⟩, s.next.2)
  else third s.next.2
termination_by (s.listed.length, stepsToZero s.counter)
decreasing_by
  rename_i h
  rcases s with ⟨_ | ⟨w, ws⟩, c⟩
  · apply Prod.Lex.right
    have h : ¬ accepted (mix (c + stride)) = true := h
    apply stepsToZero_lt
    intro e
    rw [e] at h
    exact h accepted_mix_zero
  · apply Prod.Lex.left
    simp [next]

end WordSource

end HeartKeypad
