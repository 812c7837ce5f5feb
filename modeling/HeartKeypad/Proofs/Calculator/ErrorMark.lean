import HeartKeypad.Proofs.Calculator.Sign
import Mathlib.Data.List.Induction

/-!
# What becomes of the error mark

The error mark stands on the same display as what is typed, and what edits the display edits
the mark as well.  While the calculator is idle the mark is safe: a digit replaces it, and the
clear key takes it off as a whole.  Once a mark has been typed behind it, or a minus has been
put in front, the calculator is editing, and then the clear key takes off one character at a
time and gets to the letters when nothing is left behind them.

* `Calculator.letters` — the letters of a text.
* `Calculator.Torn` — some of the mark is shown, and not all of it.
* `Calculator.Exposed`, `Calculator.Mends` — where the clear key tears the mark, and the keys
  after which no torn mark is left.
* `Calculator.torn_iff_exposed` — the one way in which a display gets torn, how long it stays so
  and what it then looks like.
* `Calculator.mark_may_be_torn` — a display that shows `Erro`.

### Why the letters are enough

The letters of a display are the beginning of the error mark (`IsDisplay.letters_prefix`): none,
some or all of it.  So a display is torn iff its letters are neither none nor all
(`torn_iff`), and of each key it only has to be said what it does to the letters.  A display that
`=` has left is not torn.  The clear key takes off a letter only where a letter is the last
character, and the other keys take off the whole mark or nothing (`letters_press`).
-/

namespace HeartKeypad

namespace Calculator

/-- The letters of a text. -/
def letters (s : Text) : Text := s.filter Char.isAlpha

/-- The text holds letters, but not the whole error mark. -/
def Torn (s : Text) : Prop := (∃ c ∈ s, c.isAlpha = true) ∧ ¬ errorMark <:+: s

/-- The next character that the clear key takes off is the last one of the error mark. -/
def Exposed (c : Calculator) : Prop :=
  c.mode = .editing ∧ (c.display = errorMark ∨ c.display = '-' :: errorMark)

/-- A key with which a torn mark is gone: `=`, or the clear key with one letter left. -/
def Mends (k : Key) (c : Calculator) : Prop :=
  k = .equal ∨ k = .clear ∧ (c.display = ['E'] ∨ c.display = ['-', 'E'])

/-! ### Letters -/

@[simp] theorem letters_nil : letters [] = [] := rfl

@[simp] theorem letters_append (s t : Text) : letters (s ++ t) = letters s ++ letters t :=
  List.filter_append ..

theorem letters_eq_nil_iff {s : Text} : letters s = [] ↔ ∀ c ∈ s, ¬ c.isAlpha = true :=
  List.filter_eq_nil_iff

/-- No key types a letter. -/
theorem Typed.letters {s : Text} (h : Typed s) : letters s = [] := by
  have letterless : keypadGlyphs.all (fun c => !c.isAlpha) = true := by decide
  refine letters_eq_nil_iff.2 fun c hc => ?_
  simpa using List.all_eq_true.1 letterless c (h c hc)

theorem letters_glyph {c : Char} (h : c ∈ keypadGlyphs) : letters [c] = [] :=
  (typed_singleton.2 h).letters

theorem letters_minus (s : Text) : letters ('-' :: s) = letters s := rfl

/-- The error mark and its beginnings hold letters only. -/
theorem letters_of_prefix {mark : Text} (h : mark <+: errorMark) : letters mark = mark := by
  have whole : errorMark.all Char.isAlpha = true := by decide
  refine List.filter_eq_self.2 fun c hc => ?_
  exact List.all_eq_true.1 whole c (h.subset hc)

theorem Remnant.letters {mark : Text} (h : Remnant mark) : letters mark = mark :=
  letters_of_prefix h.2

/-- The clear key takes off a letter only if nothing stands behind it. -/
theorem Remnant.letters_dropLast {mark rest : Text} (hm : Remnant mark) (hr : Typed rest) :
    Calculator.letters (mark ++ rest).dropLast = if rest = [] then mark.dropLast else mark := by
  split
  · rename_i nothing
    rw [nothing, List.append_nil, letters_of_prefix ((List.dropLast_prefix mark).trans hm.2)]
  · rename_i more
    rw [List.dropLast_append_of_ne_nil more, letters_append, hm.letters, hr.dropLast.letters,
      List.append_nil]

/-- A minus in front makes no difference to that. -/
theorem Remnant.letters_dropLast_minus {mark : Text} (hm : Remnant mark) (rest : Text) :
    Calculator.letters ('-' :: (mark ++ rest)).dropLast =
      Calculator.letters (mark ++ rest).dropLast := by
  rw [List.dropLast_cons_of_ne_nil (List.append_ne_nil_of_left_ne_nil hm.1 _), letters_minus]

/-- **The letters of a display are the beginning of the error mark.** -/
theorem IsDisplay.letters_prefix {s : Text} (h : IsDisplay s) : letters s <+: errorMark := by
  cases h with
  | typed hs => simp [hs.letters]
  | marked hm hr => simpa [hm.letters, hr.letters] using hm.2
  | negated hm hr => simpa [letters_minus, hm.letters, hr.letters] using hm.2

/-- A display with all the letters of the error mark is that mark, with something typed behind
it and at most a minus in front. -/
theorem IsDisplay.eq_of_letters {s : Text} (h : IsDisplay s) (whole : letters s = errorMark) :
    ∃ rest, Typed rest ∧ (s = errorMark ++ rest ∨ s = '-' :: (errorMark ++ rest)) := by
  cases h with
  | typed hs =>
      rw [hs.letters] at whole
      cases whole
  | @marked mark rest hm hr =>
      obtain rfl : mark = errorMark := by simpa [hm.letters, hr.letters] using whole
      exact ⟨rest, hr, Or.inl rfl⟩
  | @negated mark rest hm hr =>
      obtain rfl : mark = errorMark := by
        simpa [letters_minus, hm.letters, hr.letters] using whole
      exact ⟨rest, hr, Or.inr rfl⟩

/-- A display shows the whole error mark iff it has all the letters of it. -/
theorem IsDisplay.infix_iff {s : Text} (h : IsDisplay s) :
    errorMark <:+: s ↔ letters s = errorMark := by
  constructor
  · intro whole
    have inside : letters errorMark <:+: letters s := whole.filter _
    rw [remnant_errorMark.letters] at inside
    exact h.letters_prefix.eq_of_length_le inside.length_le
  · intro whole
    obtain ⟨rest, -, rfl | rfl⟩ := h.eq_of_letters whole
    · exact ⟨[], rest, rfl⟩
    · exact ⟨['-'], rest, rfl⟩

/-- **A display is torn iff its letters are neither none nor all of the error mark.** -/
theorem IsDisplay.torn_iff {s : Text} (h : IsDisplay s) :
    Torn s ↔ letters s ≠ [] ∧ letters s ≠ errorMark := by
  rw [Torn, h.infix_iff, ne_eq, letters_eq_nil_iff]
  simp

/-! ### What the keys do to the letters -/

theorem letters_settle (display : Text) (mode : Mode) :
    letters (settle display mode).display = letters display := by
  rw [display_settle]
  split
  · rename_i empty
    rw [empty]
    rfl
  · rfl

theorem letters_showing (c : Calculator) (display : Text) (mode : Mode) :
    letters (c.showing display mode).display = letters display :=
  letters_settle display mode

theorem letters_toggled (display : Text) : letters (toggled display) = letters display := by
  unfold toggled
  split <;> rfl

theorem letters_markBase (display : Text) : letters (markBase display) = letters display := by
  unfold markBase
  split
  · rename_i lone
    rw [lone]
    rfl
  · rfl

/-- Before a digit is typed, nothing that has letters is taken off but the error mark. -/
theorem letters_digitBase {display : Text} (other : display ≠ errorMark) :
    letters (digitBase display) = letters display := by
  unfold digitBase
  split
  · rename_i lone
    obtain rfl := lone.resolve_right other
    rfl
  · rfl

/-- The answer to an expression has all the letters of the error mark, or none. -/
theorem letters_answer (display : Text) :
    letters (answer display) = errorMark ∨ letters (answer display) = [] := by
  rcases answer_eq_or_isText display with error | result
  · exact Or.inl (error ▸ remnant_errorMark.letters)
  · exact Or.inr (typed_of_isText result).letters

/-- What the percent key reads could have been typed. -/
theorem typed_of_read? {s : Text} {x : Float} (h : Result.read? s = some x) : Typed s := by
  have typed : ∀ {minus : Bool} {body : Text}, Result.readBare? minus body = some x →
      Typed body := by
    intro minus body h d hd
    obtain ⟨y, literal, -, -⟩ := Result.exists_literal_of_readBare? h
    rcases Bool.or_eq_true_iff.1 (literal.numeral d hd) with digit | point
    · exact mem_keypadGlyphs_of_isDigit digit
    · exact beq_iff_eq.1 point ▸ mark_mem_keypadGlyphs .decimal
  rcases Result.read?_cases h with ⟨minus, body, rfl, bare⟩ | ⟨body, rfl, bare⟩
  · cases minus with
    | false => exact typed bare
    | true => exact typed_cons.2 ⟨minus_mem_keypadGlyphs, typed bare⟩
  · exact typed_cons.2 ⟨mark_mem_keypadGlyphs .add, typed bare⟩

/-- Neither what the percent key reads nor what it writes has letters. -/
theorem letters_pressPercent (c : Calculator) :
    letters c.pressPercent.display = letters c.display := by
  unfold pressPercent
  split
  · rename_i x read
    have result :=
      Result.isText_format (Double.isFinite_div_hundred (Result.isFinite_of_read? read))
    rw [letters_showing, (typed_of_isText result).letters, (typed_of_read? read).letters]
  · exact letters_showing ..

/-- The keys other than `=` and the clear key leave the letters, unless a digit is typed where the
error mark is shown. -/
theorem letters_press_of_ne {k : Key} {c : Calculator} (equal : k ≠ .equal) (clear : k ≠ .clear)
    (kept : ∀ d, k = .digit d → c.display ≠ errorMark) :
    letters (c.press k).display = letters c.display := by
  cases k with
  | digit d =>
      have glyph : letters [d.glyph] = [] := letters_glyph (digit_mem_keypadGlyphs d)
      simp only [press, pressDigit, letters_showing, letters_append, glyph, List.append_nil]
      exact letters_digitBase (kept d rfl)
  | mark m =>
      have glyph : letters [m.glyph] = [] := letters_glyph (mark_mem_keypadGlyphs m)
      simp only [press, pressMark, letters_showing, letters_append, glyph, List.append_nil]
      exact letters_markBase c.display
  | equal => exact absurd rfl equal
  | clear => exact absurd rfl clear
  | percent => exact letters_pressPercent c
  | negate =>
      simp only [press, toFace_pressNegate, letters_settle]
      exact letters_toggled c.display

/-- A digit takes the place of the error mark. -/
theorem letters_pressDigit_of_eq {c : Calculator} (shown : c.display = errorMark) (d : Digit) :
    letters (c.press (.digit d)).display = [] := by
  have glyph : letters [d.glyph] = [] := letters_glyph (digit_mem_keypadGlyphs d)
  have gone : digitBase c.display = [] := by
    rw [shown]
    rfl
  simp only [press, pressDigit, letters_showing, gone, List.nil_append, glyph]

/-- **What a key does to the letters**, other than `=` and the clear key: it leaves them, or takes
off the whole error mark. -/
theorem letters_press {k : Key} (equal : k ≠ .equal) (clear : k ≠ .clear) (c : Calculator) :
    letters (c.press k).display = letters c.display ∨
      letters (c.press k).display = [] ∧ letters c.display = errorMark := by
  by_cases replaced : (∃ d, k = .digit d) ∧ c.display = errorMark
  · obtain ⟨⟨d, rfl⟩, shown⟩ := replaced
    exact Or.inr ⟨letters_pressDigit_of_eq shown d, shown ▸ remnant_errorMark.letters⟩
  · exact Or.inl <| letters_press_of_ne equal clear fun d digit shown =>
      replaced ⟨⟨d, digit⟩, shown⟩

theorem letters_pressClear {c : Calculator} (editing : c.mode = .editing) :
    letters (c.press .clear).display = letters c.display.dropLast := by
  simp only [press, pressClear, editing, letters_showing]

theorem letters_dropLast_prefix (display : Text) : letters display.dropLast <+: letters display :=
  (List.dropLast_prefix display).filter _

/-- Taking the last character off a display tears the error mark only where nothing stands
behind it. -/
theorem IsDisplay.eq_of_dropLast {s : Text} (h : IsDisplay s) (whole : letters s = errorMark)
    (fewer : letters s.dropLast ≠ errorMark) : s = errorMark ∨ s = '-' :: errorMark := by
  obtain ⟨rest, typed, split⟩ := h.eq_of_letters whole
  have nothing : rest = [] := by
    by_contra more
    have kept := remnant_errorMark.letters_dropLast typed
    rw [if_neg more] at kept
    rcases split with rfl | rfl
    · exact fewer kept
    · exact fewer ((remnant_errorMark.letters_dropLast_minus rest).trans kept)
  simpa [nothing] using split

/-! ### Torn displays -/

/-- A torn display shows the beginning of the error mark. -/
theorem IsDisplay.eq_of_torn {s : Text} (h : IsDisplay s) (torn : Torn s) :
    ∃ mark rest, Remnant mark ∧ mark ≠ errorMark ∧ Typed rest ∧
      (s = mark ++ rest ∨ s = '-' :: (mark ++ rest)) := by
  obtain ⟨letter, part⟩ := h.torn_iff.1 torn
  cases h with
  | typed hs => exact absurd hs.letters letter
  | @marked mark rest hm hr =>
      refine ⟨mark, rest, hm, ?_, hr, Or.inl rfl⟩
      simpa [hm.letters, hr.letters] using part
  | @negated mark rest hm hr =>
      refine ⟨mark, rest, hm, ?_, hr, Or.inr rfl⟩
      simpa [letters_minus, hm.letters, hr.letters] using part

/-- A torn display is being edited: what is finished is the whole mark, or has no letters. -/
theorem Legible.editing_of_torn {c : Calculator} (h : Legible c) (torn : Torn c.display) :
    c.mode = .editing := by
  obtain ⟨letter, part⟩ := h.isDisplay.torn_iff.1 torn
  cases mode : c.mode with
  | editing => rfl
  | idle =>
      rcases h.idle_result mode with error | result
      · exact absurd (error ▸ remnant_errorMark.letters) part
      · exact absurd (typed_of_isText result).letters letter

/-- The last letter of a torn display goes only where it stands alone. -/
theorem IsDisplay.letters_dropLast_eq_nil_iff {s : Text} (h : IsDisplay s) (torn : Torn s) :
    letters s.dropLast = [] ↔ s = ['E'] ∨ s = ['-', 'E'] := by
  obtain ⟨mark, rest, hm, -, hr, split⟩ := h.eq_of_torn torn
  have dropped : letters s.dropLast = if rest = [] then mark.dropLast else mark := by
    rw [← hm.letters_dropLast hr]
    rcases split with rfl | rfl
    · rfl
    · exact hm.letters_dropLast_minus rest
  obtain ⟨r, rfl⟩ := hm.eq_cons
  have alone : ('E' :: r).dropLast = [] ↔ r = [] := by
    cases r <;> simp
  rw [dropped]
  rcases split with rfl | rfl
  · by_cases nothing : rest = [] <;> simp [nothing, alone]
  · by_cases nothing : rest = [] <;> simp [nothing, alone]

/-! ### One key -/

/-- What `=` leaves has all the letters of the error mark, or none. -/
theorem not_torn_of_equal (c : Calculator) : ¬ Torn (c.press .equal).display := by
  have legible : Legible (c.press .equal) := Legible.pressEqual c
  rw [legible.isDisplay.torn_iff]
  simp only [press, pressEqual, letters_showing]
  rcases letters_answer c.display with whole | gone
  · exact fun torn => torn.2 whole
  · exact fun torn => torn.1 gone

/-- **A display gets torn by the clear key only**, and only where the mark is exposed. -/
theorem torn_of_press {c : Calculator} (h : Legible c) {k : Key}
    (torn : Torn (c.press k).display) : Torn c.display ∨ (k = .clear ∧ Exposed c) := by
  by_cases equal : k = .equal
  · subst equal
    exact absurd torn (not_torn_of_equal c)
  obtain ⟨letter, part⟩ := (h.press k).isDisplay.torn_iff.1 torn
  by_cases clear : k = .clear
  · subst clear
    cases mode : c.mode with
    | idle =>
        -- what is idle is cleared altogether
        refine absurd ?_ letter
        simp only [press, pressClear, mode, letters_showing]
        rfl
    | editing =>
        rw [letters_pressClear mode] at letter part
        by_cases whole : letters c.display = errorMark
        · exact Or.inr ⟨rfl, mode, h.isDisplay.eq_of_dropLast whole part⟩
        · -- it was torn before, since letters can only be taken off
          refine Or.inl (h.isDisplay.torn_iff.2 ⟨fun gone => letter ?_, whole⟩)
          have fewer := letters_dropLast_prefix c.display
          rw [gone] at fewer
          exact List.prefix_nil.1 fewer
  · rcases letters_press equal clear c with same | ⟨gone, -⟩
    · rw [same] at letter part
      exact Or.inl (h.isDisplay.torn_iff.2 ⟨letter, part⟩)
    · exact absurd gone letter

/-- Where the mark is exposed, the clear key does tear it. -/
theorem torn_of_exposed {c : Calculator} (h : Legible c) (exposed : Exposed c) :
    Torn (c.press .clear).display := by
  rw [(h.press .clear).isDisplay.torn_iff]
  obtain ⟨editing, shown | shown⟩ := exposed <;>
  · simp only [press, pressClear, editing, shown, letters_showing]
    decide

/-- **A torn display stays torn until a key mends it.** -/
theorem torn_press_iff {c : Calculator} (h : Legible c) (torn : Torn c.display) (k : Key) :
    Torn (c.press k).display ↔ ¬ Mends k c := by
  by_cases equal : k = .equal
  · subst equal
    exact iff_of_false (not_torn_of_equal c) (not_not_intro (Or.inl rfl))
  rw [(h.press k).isDisplay.torn_iff]
  obtain ⟨letter, part⟩ := h.isDisplay.torn_iff.1 torn
  by_cases clear : k = .clear
  · subst clear
    -- taking letters off does not make the mark whole
    have part' : letters c.display.dropLast ≠ errorMark := by
      intro whole
      have fewer := letters_dropLast_prefix c.display
      rw [whole] at fewer
      exact part (h.isDisplay.letters_prefix.eq_of_length_le fewer.length_le)
    have last := h.isDisplay.letters_dropLast_eq_nil_iff torn
    simp [letters_pressClear (h.editing_of_torn torn), part', last, Mends]
  · rcases letters_press equal clear c with same | ⟨-, whole⟩
    · rw [same]
      exact iff_of_true ⟨letter, part⟩ (by simp [Mends, equal, clear])
    · exact absurd whole part

/-! ### Any number of keys -/

/-- A display that is torn after a number of keys was torn by one of them, and has been so ever
since. -/
theorem exposed_of_torn {c : Calculator} (h : Legible c) (start : ¬ Torn c.display)
    {keys : List Key} (torn : Torn (c.run keys).display) :
    ∃ before since, keys = before ++ .clear :: since ∧ Exposed (c.run before) ∧
      ∀ mid, mid <+: since → Torn (c.run (before ++ .clear :: mid)).display := by
  induction keys using List.reverseRecOn with
  | nil => exact absurd torn start
  | append_singleton keys k ih =>
      have now := torn
      rw [run_concat] at torn
      rcases torn_of_press (h.run keys) torn with already | ⟨rfl, exposed⟩
      · obtain ⟨before, since, rfl, exposed, ever⟩ := ih already
        refine ⟨before, since ++ [k], by simp, exposed, fun mid hmid => ?_⟩
        rcases List.prefix_concat_iff.1 hmid with rfl | earlier
        · simpa using now
        · exact ever mid earlier
      · refine ⟨keys, [], rfl, exposed, fun mid hmid => ?_⟩
        rw [List.prefix_nil.1 hmid]
        exact now

/-- Once the exposed mark has been torn, it stays so as long as no key mends it. -/
theorem torn_of_unmended {c : Calculator} (h : Legible c) {before : List Key}
    (exposed : Exposed (c.run before)) {since : List Key}
    (unmended : ∀ mid k, mid ++ [k] <+: since → ¬ Mends k (c.run (before ++ .clear :: mid))) :
    Torn (c.run (before ++ .clear :: since)).display := by
  induction since using List.reverseRecOn with
  | nil =>
      rw [run_concat]
      exact torn_of_exposed (h.run before) exposed
  | append_singleton since k ih =>
      have torn := ih fun mid k' earlier =>
        unmended mid k' (earlier.trans (List.prefix_append since [k]))
      rw [← List.cons_append, ← List.append_assoc, run_concat]
      exact (torn_press_iff (h.run _) torn k).2 (unmended since k List.prefix_rfl)

/-- **How the error mark gets torn.**  A calculator that was driven by keys shows letters without
the whole error mark iff at some point the clear key was pressed while editing a display that
was the mark alone, or the mark behind a minus, and no key has mended it since.  Such a display is
being edited; behind at most a minus it starts with some, not all, letters of the mark, and what
stands behind them has been typed. -/
theorem torn_iff_exposed (egg : Text) (keys : List Key) :
    (Torn ((fresh egg).run keys).display ↔ ∃ before since, keys = before ++ .clear :: since ∧
      Exposed ((fresh egg).run before) ∧
      ∀ mid k, mid ++ [k] <+: since → ¬ Mends k ((fresh egg).run (before ++ .clear :: mid))) ∧
    (Torn ((fresh egg).run keys).display → ((fresh egg).run keys).mode = .editing ∧
      ∃ mark rest, Remnant mark ∧ mark ≠ errorMark ∧ Typed rest ∧
        (((fresh egg).run keys).display = mark ++ rest ∨
          ((fresh egg).run keys).display = '-' :: (mark ++ rest))) := by
  have start : ¬ Torn (fresh egg).display :=
    fun torn => ((legible_zero egg).isDisplay.torn_iff.1 torn).1 rfl
  have legible := (legible_zero egg).run
  refine ⟨⟨fun torn => ?_, ?_⟩, fun torn =>
    ⟨(legible keys).editing_of_torn torn, (legible keys).isDisplay.eq_of_torn torn⟩⟩
  · obtain ⟨before, since, split, exposed, ever⟩ := exposed_of_torn (legible_zero egg) start torn
    refine ⟨before, since, split, exposed, fun mid k earlier => ?_⟩
    have now := ever mid ((List.prefix_append mid [k]).trans earlier)
    have next := ever (mid ++ [k]) earlier
    rw [← List.cons_append, ← List.append_assoc, run_concat] at next
    exact (torn_press_iff (legible _) now k).1 next
  · rintro ⟨before, since, rfl, exposed, unmended⟩
    exact torn_of_unmended (legible_zero egg) exposed unmended

/-- **The error mark may be torn**: behind it a plus is typed and taken off again, and then one
character more. -/
theorem mark_may_be_torn :
    ¬ ∀ egg keys, (∃ c ∈ ((fresh egg).run keys).display, c.isAlpha = true) →
      errorMark <:+: ((fresh egg).run keys).display := by
  intro always
  have shown : ((fresh []).run [.mark .add, .equal, .mark .add, .clear, .clear]).display =
      ['E', 'r', 'r', 'o'] := by decide
  have whole := always [] [.mark .add, .equal, .mark .add, .clear, .clear]
  rw [shown] at whole
  exact absurd (whole ⟨'E', by simp, rfl⟩).length_le (by decide)

end Calculator

end HeartKeypad
