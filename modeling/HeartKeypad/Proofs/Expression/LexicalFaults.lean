import HeartKeypad.Proofs.Expression.Spelling

/-!
# Lexical faults

What can be wrong with a text before its tokens are put together, said by position and
without the scanner: a character that means nothing, or a maximal run of digits and points
that is no number.  A text may hold many such faults, and the scanner reports the leftmost.

* `Text.Faulty` — a fault, with the text in front of it.
* `Text.FaultAt` — the faults of a text, each at the position where it starts.
* `Text.ofText_eq_error_iff` — the scanner reports the leftmost fault, and no other.
* `Text.Sound.exists_spelled` — a text that has none spells one list of tokens.

### Why the leftmost one is met first

The scanner walks along the cut of a text.  A lexeme that is read without a fault has none at
any of its characters: one inside of a run would be a run of its own, and that is not maximal
(`Text.not_faulty_inside`).
-/

namespace HeartKeypad

namespace Text

open Numeral (isNumeral isDigit)

/-! ### Runs and faults -/

/-- **A character that means nothing**: no blank, no digit or point, and no operator. -/
structure Stray (c : Char) : Prop where
  not_blank : isBlank c = false
  not_numeral : isNumeral c = false
  not_glyph : ∀ op, ¬ Operator.IsGlyph op c

/-- A maximal run can start behind the text. -/
def AdmitsRun (front : Text) : Prop := ∀ c ∈ front.getLast?, isNumeral c = false

/-- **A maximal run** of digits and points, with the text in front of it and the text behind
it. -/
structure IsRun (front run behind : Text) : Prop where
  nonempty : run ≠ []
  numeral : ∀ c ∈ run, isNumeral c = true
  starts : AdmitsRun front
  ends : EndsRun behind

/-- A run that is no number: it has no digit, or more than one point. -/
def Malformed (run : Text) : Prop := (∀ c ∈ run, isDigit c = false) ∨ 1 < run.count '.'

/-- **A fault where a text starts**, behind another one. -/
inductive Faulty (front : Text) : Text → ParseFault → Prop
  | stray {c : Char} {behind : Text} : Stray c →
      Faulty front (c :: behind) (.unexpected c front.length)
  | malformed {run behind : Text} : IsRun front run behind → Malformed run →
      Faulty front (run ++ behind) (.malformed run)

/-- **The faults of a text**, each at the position where it starts. -/
def FaultAt (s : Text) (i : Nat) (f : ParseFault) : Prop := Faulty (s.take i) (s.drop i) f

/-- The text has no lexical fault. -/
def Sound (s : Text) : Prop := ∀ i f, ¬ FaultAt s i f

/-- **The leftmost fault of a text.** -/
def Leftmost (s : Text) (f : ParseFault) : Prop :=
  ∃ i, FaultAt s i f ∧ ∀ j g, FaultAt s j g → i ≤ j

variable {s t front behind run : Text} {c : Char} {i : Nat} {f g : ParseFault}

theorem faultAt_append : FaultAt (front ++ t) front.length f ↔ Faulty front t f := by
  rw [FaultAt, List.take_left, List.drop_left]

/-- A run is read as a number unless it is malformed. -/
theorem read?_eq_none_iff (numeral : ∀ c ∈ run, isNumeral c = true) :
    Numeral.read? run = none ↔ Malformed run := by
  have all : run.all isNumeral = true := List.all_eq_true.2 numeral
  rw [Malformed, Numeral.read?, all, Bool.true_and, Numeral.wellFormed]
  by_cases digit : run.any isDigit = true <;> by_cases points : run.count '.' ≤ 1 <;>
    simp_all

/-- Nothing is at fault behind the end of a text. -/
theorem FaultAt.lt_length (h : FaultAt s i f) : i < s.length := by
  by_contra beyond
  rw [FaultAt, List.drop_eq_nil_of_le (Nat.le_of_not_lt beyond)] at h
  generalize rest : ([] : Text) = r at h
  cases h with
  | stray _ => cases rest
  | malformed isRun _ => exact isRun.nonempty (List.append_eq_nil_iff.1 rest.symm).1

/-! ### One fault at a place -/

/-- A maximal run is all that can be taken from the text where it starts. -/
theorem IsRun.takeWhile (h : IsRun front run behind) :
    (run ++ behind).takeWhile isNumeral = run := by
  rw [List.takeWhile_append_of_pos h.numeral]
  cases behind with
  | nil => simp
  | cons c behind =>
      have stop : isNumeral c = false := h.ends
      simp [stop]

theorem IsRun.unique {front' run' behind' : Text} (h : IsRun front run behind)
    (h' : IsRun front' run' behind') (same : run ++ behind = run' ++ behind') : run = run' := by
  rw [← h.takeWhile, same, h'.takeWhile]

/-- A maximal run starts with a digit or a point. -/
theorem IsRun.isNumeral_of_cons (h : IsRun front run behind) (text : run ++ behind = c :: t) :
    isNumeral c = true := by
  obtain ⟨d, r, rfl⟩ := List.exists_cons_of_ne_nil h.nonempty
  obtain rfl : d = c := (List.cons.inj text).1
  exact h.numeral d List.mem_cons_self

theorem Stray.not_isRun (h : Stray c) (text : run ++ behind = c :: t) :
    ¬ IsRun front run behind := by
  intro isRun
  have digit := isRun.isNumeral_of_cons text
  rw [h.not_numeral] at digit
  cases digit

/-- **There is one fault at most at a place.** -/
theorem Faulty.unique (hf : Faulty front t f) (hg : Faulty front t g) : f = g := by
  cases hf with
  | @stray c behind stray =>
      generalize text : c :: behind = t at hg
      cases hg with
      | @stray d _ _ => rw [(List.cons.inj text).1]
      | @malformed run _ isRun _ => exact absurd isRun (stray.not_isRun text.symm)
  | @malformed run behind isRun _ =>
      generalize text : run ++ behind = t at hg
      cases hg with
      | @stray d _ stray => exact absurd isRun (stray.not_isRun text)
      | @malformed run' _ isRun' _ => rw [isRun.unique isRun' text]

theorem FaultAt.unique (hf : FaultAt s i f) (hg : FaultAt s i g) : f = g := Faulty.unique hf hg

/-- A text has one leftmost fault at most. -/
theorem Leftmost.unique (hf : Leftmost s f) (hg : Leftmost s g) : f = g := by
  obtain ⟨i, fault, least⟩ := hf
  obtain ⟨j, fault', least'⟩ := hg
  obtain rfl : i = j := Nat.le_antisymm (least _ _ fault') (least' _ _ fault)
  exact fault.unique fault'

/-! ### Lexemes without a fault -/

/-- A blank or an operator is no fault. -/
theorem not_faulty_single (hc : isNumeral c = false) (known : ¬ Stray c) :
    ¬ Faulty front (c :: t) f := by
  intro h
  generalize text : c :: t = r at h
  cases h with
  | stray stray =>
      obtain ⟨rfl, -⟩ := List.cons.inj text
      exact known stray
  | malformed isRun _ =>
      have digit := isRun.isNumeral_of_cons text.symm
      rw [hc] at digit
      cases digit

/-- Nothing is at fault where a run starts that is a number. -/
theorem not_faulty_run (isRun : IsRun front run behind) (number : ¬ Malformed run) :
    ¬ Faulty front (run ++ behind) f := by
  intro h
  generalize text : run ++ behind = r at h
  cases h with
  | stray stray => exact stray.not_isRun text isRun
  | malformed isRun' malformed =>
      rw [isRun.unique isRun' text] at number
      exact number malformed

/-- Nor is anything inside of a run. -/
theorem not_faulty_inside {first rest : Text} (nonempty : first ≠ [])
    (numeral : ∀ d ∈ first ++ c :: rest, isNumeral d = true) :
    ¬ Faulty (front ++ first) (c :: rest ++ behind) f := by
  intro h
  generalize text : c :: rest ++ behind = r at h
  cases h with
  | @stray d _ stray =>
      obtain rfl : c = d := (List.cons.inj text).1
      have digit := numeral c (by simp)
      rw [stray.not_numeral] at digit
      cases digit
  | malformed isRun _ =>
      -- the character in front belongs to the run too, so none starts here
      have stands : (front ++ first).getLast? = some (first.getLast nonempty) := by
        simp [List.getLast?_append, List.getLast?_eq_some_getLast nonempty]
      have last := isRun.starts _ stands
      rw [numeral _ (List.mem_append_left _ (List.getLast_mem nonempty))] at last
      cases last

/-- **A run that is a number has no fault** at any of its characters. -/
theorem not_faulty_within (isRun : IsRun front run behind) (number : ¬ Malformed run) {k : Nat}
    (inside : k < run.length) : ¬ FaultAt (front ++ (run ++ behind)) (front.length + k) f := by
  have split := List.take_append_drop k run
  rcases Nat.eq_zero_or_pos k with rfl | pos
  · rw [Nat.add_zero, faultAt_append]
    exact not_faulty_run isRun number
  · have nonempty : run.take k ≠ [] := by
      rw [← List.length_pos_iff, List.length_take]
      omega
    have numeral := isRun.numeral
    rw [← split] at numeral ⊢
    have place : front.length + k = (front ++ run.take k).length := by
      rw [List.length_append, List.length_take]
      omega
    have left : run.drop k ≠ [] := by
      rw [ne_eq, List.drop_eq_nil_iff]
      omega
    obtain ⟨c, rest, drop⟩ := List.exists_cons_of_ne_nil left
    rw [place, List.append_assoc, ← List.append_assoc front, faultAt_append]
    rw [drop] at numeral ⊢
    exact not_faulty_inside nonempty numeral

/-! ### Along the cut -/

/-- **What is said about the faults from a position on**: that there are none, or which one is
the first of them. -/
inductive Reports (s : Text) (n : Nat) : Except ParseFault (List Token) → Prop
  | sound {ts : List Token} : (∀ j g, FaultAt s j g → j < n) → Reports s n (.ok ts)
  | first {i : Nat} {f : ParseFault} : n ≤ i → FaultAt s i f →
      (∀ j g, FaultAt s j g → n ≤ j → i ≤ j) → Reports s n (.error f)

variable {n m : Nat} {r : Except ParseFault (List Token)}

/-- What is said does not depend on the tokens. -/
theorem Reports.map (h : Reports s n r) (put : List Token → List Token) :
    Reports s n (r.map put) := by
  cases h with
  | sound clean => exact .sound clean
  | first from_ fault least => exact .first from_ fault least

/-- A piece of the text without a fault can be passed over. -/
theorem Reports.passing (h : Reports s m r) (order : n ≤ m)
    (clean : ∀ j g, n ≤ j → j < m → ¬ FaultAt s j g) : Reports s n r := by
  have later {j : Nat} {g : ParseFault} (fault : FaultAt s j g) (at_ : n ≤ j) : m ≤ j := by
    by_contra early
    exact clean j g at_ (Nat.lt_of_not_le early) fault
  cases h with
  | sound sound =>
      refine .sound fun j g fault => ?_
      by_contra at_
      exact absurd (sound j g fault) (Nat.not_lt.2 (later fault (Nat.le_of_not_lt at_)))
  | first from_ fault least =>
      exact .first (order.trans from_) fault fun j g other at_ =>
        least j g other (later other at_)

/-- A fault at the position itself is the first. -/
theorem reports_here (h : Faulty front t f) :
    Reports (front ++ t) front.length (.error f) :=
  .first (le_refl _) (faultAt_append.2 h) fun _ _ _ at_ => at_

theorem ofLexemes_single (hc : isNumeral c = false) (n : Nat) (ls : List Lexeme) :
    (Stray c ∧ Token.ofLexemes n (Lexeme.ofChar c :: ls) = .error (.unexpected c n)) ∨
      (¬ Stray c ∧ ∃ put, Token.ofLexemes n (Lexeme.ofChar c :: ls) =
        (Token.ofLexemes (n + 1) ls).map put) := by
  cases hb : isBlank c with
  | true =>
      refine Or.inr ⟨fun stray => ?_, id, ?_⟩
      · rw [stray.not_blank] at hb
        cases hb
      · rw [Lexeme.ofChar_of_isBlank hb, Token.ofLexemes]
        cases Token.ofLexemes (n + 1) ls <;> rfl
  | false =>
      cases hg : Operator.ofGlyph? c with
      | none =>
          refine Or.inl ⟨⟨hb, hc, fun op glyph => ?_⟩, ?_⟩
          · rw [Operator.ofGlyph?_eq_some_iff.2 glyph] at hg
            cases hg
          · rw [Lexeme.ofChar, hb, hg]
            rfl
      | some op =>
          have glyph := Operator.ofGlyph?_eq_some_iff.1 hg
          refine Or.inr ⟨fun stray => stray.not_glyph op glyph, (.operator op :: ·), ?_⟩
          rw [Lexeme.ofChar_of_isGlyph glyph, Token.ofLexemes]

/-- **The scanner reports the first fault** from where it starts. -/
theorem reports_of_cut {ls : List Lexeme} (cut : Lexeme.Cut t ls) :
    ∀ {front : Text}, EndsRun t ∨ AdmitsRun front →
      Reports (front ++ t) front.length (Token.ofLexemes front.length ls) := by
  induction cut with
  | nil =>
      intro front _
      exact .sound fun j g fault => by simpa using fault.lt_length
  | @single c t ls hc _ ih =>
      intro front _
      rcases ofLexemes_single hc front.length ls with ⟨stray, error⟩ | ⟨known, put, rest⟩
      · rw [error]
        exact reports_here (.stray stray)
      · have admits : AdmitsRun (front ++ [c]) := by simp [AdmitsRun, hc]
        have later := ih (Or.inr admits)
        rw [List.append_assoc, List.singleton_append, List.length_append, List.length_singleton]
          at later
        rw [rest]
        refine (later.map put).passing (Nat.le_succ _) fun j g from_ upto fault => ?_
        obtain rfl : j = front.length := by omega
        exact not_faulty_single hc known (faultAt_append.1 fault)
  | @run run t ls nonempty numeral ends _ ih =>
      intro front admits
      obtain ⟨c, r, rfl⟩ := List.exists_cons_of_ne_nil nonempty
      have starts : AdmitsRun front := by
        refine admits.resolve_left fun stops => ?_
        have digit := numeral c List.mem_cons_self
        rw [endsRun_cons.1 stops] at digit
        cases digit
      have isRun : IsRun front (c :: r) t := ⟨nonempty, numeral, starts, ends⟩
      rw [Token.ofLexemes]
      split
      · rename_i x read
        have number : ¬ Malformed (c :: r) := by
          rw [← read?_eq_none_iff numeral, read]
          simp
        have later := @ih (front ++ c :: r) (Or.inl ends)
        rw [List.append_assoc, List.length_append] at later
        refine (later.map _).passing (Nat.le_add_right _ _) fun j g from_ upto fault => ?_
        obtain ⟨k, rfl⟩ := Nat.exists_eq_add_of_le from_
        exact not_faulty_within isRun number (Nat.lt_of_add_lt_add_left upto) fault
      · rename_i read
        exact reports_here (.malformed isRun ((read?_eq_none_iff numeral).1 read))

theorem reports_ofText (s : Text) : Reports s 0 (Token.ofText s) :=
  @reports_of_cut s _ (Lexeme.cut_ofText s) [] (Or.inr fun _ none => nomatch none)

/-- A text that is read has no fault. -/
theorem sound_of_ok {ts : List Token} (h : Token.ofText s = .ok ts) : Sound s := by
  have reports := reports_ofText s
  rw [h] at reports
  cases reports with
  | sound clean => exact fun i f fault => Nat.not_lt_zero i (clean i f fault)

/-- What is reported is the leftmost fault. -/
theorem leftmost_of_error (h : Token.ofText s = .error f) : Leftmost s f := by
  have reports := reports_ofText s
  rw [h] at reports
  cases reports with
  | first _ fault least => exact ⟨_, fault, fun j g other => least j g other (Nat.zero_le j)⟩

/-- **The scanner reports the leftmost fault**, and no other. -/
theorem ofText_eq_error_iff : Token.ofText s = .error f ↔ Leftmost s f := by
  refine ⟨leftmost_of_error, fun leftmost => ?_⟩
  cases scan : Token.ofText s with
  | error g => rw [leftmost.unique (leftmost_of_error scan)]
  | ok ts =>
      obtain ⟨i, fault, -⟩ := leftmost
      exact absurd fault (sound_of_ok scan i f)

/-- **A text without a fault spells tokens**, and only one list of them. -/
theorem Sound.exists_spelled (h : Sound s) : ∃ ts, ∀ us, Token.Spelled s us ↔ us = ts := by
  cases scan : Token.ofText s with
  | error f =>
      obtain ⟨i, fault, -⟩ := leftmost_of_error scan
      exact absurd fault (h i f)
  | ok ts =>
      refine ⟨ts, fun us => ?_⟩
      rw [← Token.ofText_eq_ok_iff, scan, Except.ok.injEq, eq_comm]

/-- A text with a fault has a leftmost one. -/
theorem exists_leftmost (h : ¬ Sound s) : ∃ f, Leftmost s f := by
  cases scan : Token.ofText s with
  | error f => exact ⟨f, leftmost_of_error scan⟩
  | ok ts => exact absurd (sound_of_ok scan) h

end Text

end HeartKeypad
