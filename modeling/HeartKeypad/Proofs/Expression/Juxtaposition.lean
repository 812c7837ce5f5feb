import HeartKeypad.Proofs.Except
import HeartKeypad.Proofs.Expression.LexicalFaults
import HeartKeypad.Proofs.Expression.Normal
import Mathlib.Data.List.DropRight

/-!
# Texts next to each other

The scanner reads a text in one pass, and looks ahead only within a run of digits and points.  So
a text may be scanned in two parts wherever no run goes across the place where they meet.

* `Text.Touching` — a run goes across: one text ends with a digit or point, and the other starts
  with one.
* `Lexeme.ofText_append` — otherwise the lexemes of the two texts follow each other.
* `Lexeme.ofText_append_of_touching` — and if one does, two runs become one, and no other lexeme
  changes.
* `ParseFault.later`, `Token.ofText_append` — what the scanner finds in two texts that do not
  touch.
* `Text.Respaced` — the texts that come about when blanks are put in and taken out, but not
  between two characters of a run.
* `Token.scan_compositional` — scanning is compositional, and such blanks do not matter.
* `Token.ofText_ne_of_touching` — inside of a run every blank matters.

### Why only positions change

A stray character is reported with its position in the whole text, so a text in front makes that
larger by the number of its characters.  The scanner counts lexeme by lexeme; what it has counted
at the end of a text is the length of the text, since the cut loses no character
(`Lexeme.spelling_ofText`).  No other fault and no token says where it stands.
-/

namespace HeartKeypad

namespace Text

open Numeral (isNumeral)

/-! ### Where two texts meet -/

/-- **A run goes across** the place where two texts meet: both characters there are digits or
points. -/
structure Touching (a b : Text) : Prop where
  ends : ∃ c ∈ a.getLast?, isNumeral c = true
  begins : ∃ c ∈ b.head?, isNumeral c = true

variable {a b w : Text}

theorem endsRun_iff_head? : EndsRun b ↔ ∀ c ∈ b.head?, isNumeral c = false := by
  cases b with
  | nil => simp
  | cons c b => simp [endsRun_cons]

/-- Two texts do not touch iff a run can start behind the first, or none can go on into the
second. -/
theorem not_touching_iff : ¬ Touching a b ↔ AdmitsRun a ∨ EndsRun b := by
  constructor
  · intro apart
    by_cases ends : ∃ c ∈ a.getLast?, isNumeral c = true
    · refine Or.inr (endsRun_iff_head?.2 fun c hc => ?_)
      exact Bool.eq_false_iff.2 fun numeral => apart ⟨ends, c, hc, numeral⟩
    · exact Or.inl fun c hc => Bool.eq_false_iff.2 fun numeral => ends ⟨c, hc, numeral⟩
  · rintro (admits | stops) ⟨⟨c, hc, numeral⟩, d, hd, numeral'⟩
    · rw [admits c hc] at numeral
      cases numeral
    · rw [endsRun_iff_head?.1 stops d hd] at numeral'
      cases numeral'

/-- Whether a run can start behind a text is decided by any end of it. -/
theorem AdmitsRun.of_append (h : AdmitsRun (a ++ b)) : AdmitsRun b := by
  intro c hc
  refine h c ?_
  rw [List.getLast?_append, Option.mem_def.1 hc]
  rfl

/-- A text that ends runs does so with anything behind it that does. -/
theorem EndsRun.append (ends : EndsRun a) (behind : a = [] → EndsRun b) : EndsRun (a ++ b) := by
  cases a with
  | nil => exact behind rfl
  | cons c a => exact ends

theorem Blanks.admitsRun (h : Blanks w) : AdmitsRun w := fun c hc =>
  isNumeral_eq_false_of_isBlank (h c (List.mem_of_getLast? hc))

/-- No run admits another one behind it. -/
theorem not_admitsRun {run : Text} (nonempty : run ≠ [])
    (numeral : ∀ c ∈ run, isNumeral c = true) : ¬ AdmitsRun run := by
  intro admits
  have last := admits _ (List.getLast?_eq_some_getLast nonempty)
  rw [numeral _ (List.getLast_mem nonempty)] at last
  cases last

/-- A text that ends with a digit or point ends with a maximal run. -/
theorem exists_run_last (h : ∃ c ∈ a.getLast?, isNumeral c = true) :
    ∃ front run, a = front ++ run ∧ IsRun front run [] := by
  obtain ⟨c, last, numeral⟩ := h
  refine ⟨a.rdropWhile isNumeral, a.rtakeWhile isNumeral, List.rdropWhile_append_rtakeWhile.symm,
    ?_, fun d hd => List.mem_rtakeWhile_imp hd, ?_, trivial⟩
  · intro none
    have nonempty : a ≠ [] := by
      rintro rfl
      cases last
    rw [List.getLast?_eq_some_getLast nonempty] at last
    cases last
    exact List.rtakeWhile_eq_nil_iff.1 none nonempty numeral
  · intro d hd
    have nonempty : a.rdropWhile isNumeral ≠ [] := by
      intro none
      rw [none] at hd
      cases hd
    rw [List.getLast?_eq_some_getLast nonempty] at hd
    cases hd
    exact Bool.eq_false_iff.2 (List.rdropWhile_last_not isNumeral a nonempty)

/-- A text that starts with a digit or point starts with a maximal run. -/
theorem exists_run_first (h : ∃ c ∈ b.head?, isNumeral c = true) :
    ∃ run behind, b = run ++ behind ∧ IsRun [] run behind := by
  obtain ⟨c, first, numeral⟩ := h
  have cut := Lexeme.cut_ofText b
  generalize Lexeme.ofText b = ls at cut
  cases cut with
  | nil => cases first
  | single other _ =>
      cases first
      rw [other] at numeral
      cases numeral
  | run nonempty numerals ends _ =>
      exact ⟨_, _, rfl, nonempty, numerals, (fun _ none => nomatch none), ends⟩

end Text

/-! ### The lexemes of two texts -/

namespace Lexeme

open Text (AdmitsRun EndsRun IsRun Touching)

variable {a b : Text} {ls ms : List Lexeme}

/-- **The cuts of two texts follow each other**, unless a run goes across.  The induction is on
the cut of the first text; only its last lexeme meets the second. -/
theorem Cut.append (ha : Cut a ls) (hb : Cut b ms) (apart : AdmitsRun a ∨ EndsRun b) :
    Cut (a ++ b) (ls ++ ms) := by
  induction ha with
  | nil => exact hb
  | @single c a ls hc _ ih =>
      exact .single hc (ih (apart.imp_left (AdmitsRun.of_append (a := [c]))))
  | @run run a ls nonempty numeral ends _ ih =>
      have behind : a = [] → EndsRun b := by
        rintro rfl
        rw [List.append_nil] at apart
        exact apart.resolve_left (Text.not_admitsRun nonempty numeral)
      rw [List.append_assoc]
      exact .run nonempty numeral (ends.append behind) (ih (apart.imp_left AdmitsRun.of_append))

/-- **The lexemes of two texts that do not touch.** -/
theorem ofText_append (apart : AdmitsRun a ∨ EndsRun b) :
    ofText (a ++ b) = ofText a ++ ofText b :=
  ofText_eq_iff_cut.2 ((cut_ofText a).append (cut_ofText b) apart)

/-- **The lexemes of two texts that touch**: the run that ends the first and the run that starts
the second become one. -/
theorem ofText_append_of_touching (h : Touching a b) : ∃ ls run run' ms,
    ofText a = ls ++ [.numeral run] ∧ ofText b = .numeral run' :: ms ∧
      ofText (a ++ b) = ls ++ .numeral (run ++ run') :: ms := by
  obtain ⟨front, run, rfl, last⟩ := Text.exists_run_last h.ends
  obtain ⟨run', behind, rfl, first⟩ := Text.exists_run_first h.begins
  have numeral : ∀ c ∈ run ++ run', Numeral.isNumeral c = true := fun c hc =>
    (List.mem_append.1 hc).elim (last.numeral c) (first.numeral c)
  have nonempty : run ++ run' ≠ [] := by simp [last.nonempty]
  have alone : ofText run = [.numeral run] := by
    simpa using ofText_run_append last.nonempty last.numeral Text.endsRun_nil
  refine ⟨ofText front, run, run', ofText behind, ?_, ?_, ?_⟩
  · rw [ofText_append (Or.inl last.starts), alone]
  · exact ofText_run_append first.nonempty first.numeral first.ends
  · rw [List.append_assoc, ← List.append_assoc run, ofText_append (Or.inl last.starts),
      ofText_run_append nonempty numeral first.ends]

end Lexeme

/-! ### The faults of two texts -/

namespace ParseFault

/-- **The fault behind a number of characters**: a position is that much larger. -/
def later (n : Nat) : ParseFault → ParseFault
  | .unexpected c position => .unexpected c (position + n)
  | fault => fault

/-- What a fault says apart from its position. -/
def unplaced : ParseFault → ParseFault
  | .unexpected c _ => .unexpected c 0
  | fault => fault

/-- Behind two numbers of characters a fault is later by both. -/
theorem later_later (m n : Nat) (f : ParseFault) : (f.later m).later n = f.later (m + n) := by
  cases f with
  | unexpected c position => exact congrArg (unexpected c) (Nat.add_assoc position m n)
  | empty => rfl
  | malformed literal => rfl
  | missingOperand position => rfl

theorem unplaced_later (n : Nat) (f : ParseFault) : (f.later n).unplaced = f.unplaced := by
  cases f <;> rfl

end ParseFault

namespace Token

open ParseFault (unplaced)
open Text (AdmitsRun Blanks EndsRun Touching)

/-- **What is found in two parts**: the tokens of both, or the fault that is met first. -/
def inTurn : Except ParseFault (List Token) → Except ParseFault (List Token) →
    Except ParseFault (List Token)
  | .error f, _ => .error f
  | .ok _, .error f => .error f
  | .ok ts, .ok us => .ok (ts ++ us)

variable {a b w : Text} {ts : List Token} {r q : Except ParseFault (List Token)}

@[simp] theorem inTurn_nil_left : inTurn (.ok []) r = r := by
  cases r <;> rfl

theorem inTurn_eq_ok_iff :
    inTurn r q = .ok ts ↔ ∃ us vs, r = .ok us ∧ q = .ok vs ∧ ts = us ++ vs := by
  cases r <;> cases q <;> simp [inTurn, eq_comm]

/-- A token in front of two parts is in front of the first. -/
theorem map_cons_inTurn (t : Token) : (inTurn r q).map (t :: ·) = inTurn (r.map (t :: ·)) q := by
  cases r <;> cases q <;> rfl

theorem mapError_inTurn (change : ParseFault → ParseFault) :
    (inTurn r q).mapError change = inTurn (r.mapError change) (q.mapError change) := by
  cases r <;> cases q <;> rfl

/-- **Lexemes in front** are read first, and those behind them start where they end. -/
theorem ofLexemes_append (position : Nat) (ls ms : List Lexeme) :
    ofLexemes position (ls ++ ms) = inTurn (ofLexemes position ls)
      (ofLexemes (position + (ls.flatMap Lexeme.spelling).length) ms) := by
  induction ls generalizing position with
  | nil => exact inTurn_nil_left.symm
  | cons l ls ih =>
      rw [List.cons_append, List.flatMap_cons, List.length_append, ← Nat.add_assoc]
      cases l with
      | blank c => exact ih _
      | numeral run =>
          rw [ofLexemes, ofLexemes, ih]
          cases Numeral.read? run with
          | none => rfl
          | some x => exact map_cons_inTurn _
      | glyph c op =>
          rw [ofLexemes, ofLexemes, ih]
          exact map_cons_inTurn _
      | stray c => rfl

/-- **Lexemes that start later** are read as the same tokens, and a fault among them is as much
later. -/
theorem ofLexemes_add (position n : Nat) (ls : List Lexeme) :
    ofLexemes (position + n) ls = (ofLexemes position ls).mapError (.later n) := by
  induction ls generalizing position with
  | nil => rfl
  | cons l ls ih =>
      cases l with
      | blank c => rw [ofLexemes, ofLexemes, Nat.add_right_comm, ih]
      | numeral run =>
          rw [ofLexemes, ofLexemes, Nat.add_right_comm, ih]
          cases Numeral.read? run with
          | none => rfl
          | some x => exact (mapError_map _ _ _).symm
      | glyph c op =>
          rw [ofLexemes, ofLexemes, Nat.add_right_comm, ih, mapError_map]
      | stray c => rfl

/-- Whether lexemes are read does not depend on where they start, nor do their tokens. -/
theorem ofLexemes_eq_ok_iff {position : Nat} {ls : List Lexeme} :
    ofLexemes position ls = .ok ts ↔ ofLexemes 0 ls = .ok ts := by
  rw [← Nat.zero_add position, ofLexemes_add, mapError_eq_ok_iff]

/-- **Two texts that do not touch are scanned in turn**, the second one behind the characters of
the first. -/
theorem ofText_append (apart : AdmitsRun a ∨ EndsRun b) :
    ofText (a ++ b) = inTurn (ofText a) ((ofText b).mapError (.later a.length)) := by
  rw [ofText, Lexeme.ofText_append apart, ofLexemes_append, Lexeme.spelling_ofText, ofLexemes_add]
  rfl

/-! ### Blanks -/

theorem ofText_blanks (h : Blanks w) : ofText w = .ok [] := by
  have spelled := Spelled.blanks_append h .nil
  rw [List.append_nil] at spelled
  exact ofText_eq_ok_iff.2 spelled

/-- **Blanks where two texts meet** make every position behind them larger, and change nothing
else. -/
theorem ofText_insert (blanks : Blanks w) (apart : AdmitsRun a ∨ EndsRun b) :
    ofText (a ++ (w ++ b)) =
      inTurn (ofText a) ((ofText b).mapError (.later (w.length + a.length))) := by
  rw [ofText_append (apart.imp_right blanks.endsRun_append),
    ofText_append (Or.inl blanks.admitsRun), ofText_blanks blanks, inTurn_nil_left]
  cases ofText b with
  | error f => exact congrArg (inTurn (ofText a) ∘ .error) (f.later_later w.length a.length)
  | ok us => rfl

/-- What is found is the same then, but for positions. -/
theorem alike_of_insert (blanks : Blanks w) (apart : AdmitsRun a ∨ EndsRun b) :
    (ofText (a ++ (w ++ b))).mapError unplaced = (ofText (a ++ b)).mapError unplaced := by
  rw [ofText_insert blanks apart, ofText_append apart, mapError_inTurn, mapError_inTurn]
  cases ofText b with
  | error f =>
      show inTurn _ (.error (f.later _).unplaced) = inTurn _ (.error (f.later _).unplaced)
      rw [ParseFault.unplaced_later, ParseFault.unplaced_later]
  | ok us => rfl

end Token

namespace Text

open ParseFault (unplaced)

/-- **The texts that come about** when blanks are put in or taken out where no run goes across,
as often as one likes. -/
inductive Respaced (s : Text) : Text → Prop
  | refl : Respaced s s
  | insert {a b w : Text} : Respaced s (a ++ b) → ¬ Touching a b → Blanks w →
      Respaced s (a ++ (w ++ b))
  | delete {a b w : Text} : Respaced s (a ++ (w ++ b)) → ¬ Touching a b → Blanks w →
      Respaced s (a ++ b)

/-- **Respacing keeps what is found** in a text, but for positions. -/
theorem Respaced.alike {s t : Text} (h : Respaced s t) :
    (Token.ofText t).mapError unplaced = (Token.ofText s).mapError unplaced := by
  induction h with
  | refl => rfl
  | insert _ apart blanks ih =>
      rw [Token.alike_of_insert blanks (not_touching_iff.1 apart), ih]
  | delete _ apart blanks ih =>
      rw [← Token.alike_of_insert blanks (not_touching_iff.1 apart), ih]

/-- Respacing neither adds tokens nor takes any away. -/
theorem Respaced.ofText_eq_ok_iff {s t : Text} {ts : List Token} (h : Respaced s t) :
    Token.ofText t = .ok ts ↔ Token.ofText s = .ok ts := by
  rw [← mapError_eq_ok_iff, h.alike, mapError_eq_ok_iff]

/-- **Respacing keeps the value** of a text that has tokens, or the reason why it has none. -/
theorem Respaced.evaluate_eq {s t : Text} (h : Respaced s t) (sound : Sound s) :
    Expression.evaluate t = Expression.evaluate s := by
  obtain ⟨ts, spelled⟩ := sound.exists_spelled
  have scan := Token.ofText_eq_ok_iff.2 ((spelled ts).2 rfl)
  exact Expression.evaluate_of_same_tokens ((h.ofText_eq_ok_iff.2 scan).trans scan.symm)

end Text

namespace Token

open Text (AdmitsRun Blanks EndsRun Touching Respaced)

variable {a b w : Text} {ts us vs : List Token}

/-- **Scanning is compositional.**  If no run of digits and points goes across the place where two
texts meet, then scanning them as one fails like the first if that fails; otherwise it yields the
tokens of both, if the second has any to yield; and otherwise it fails like the second, with the
position of a stray character larger by the number of characters in front.  So blanks that are put
in or taken out, anywhere but inside a run, never change the tokens. -/
theorem scan_compositional :
    (∀ a b : Text, ¬ Touching a b → ofText (a ++ b) =
      match ofText a, ofText b with
      | .error f, _ => .error f
      | .ok ts, .ok us => .ok (ts ++ us)
      | .ok _, .error f => .error (f.later a.length)) ∧
    ∀ s t : Text, Respaced s t → ∀ ts, ofText t = .ok ts ↔ ofText s = .ok ts := by
  refine ⟨fun a b apart => ?_, fun s t respaced ts => respaced.ofText_eq_ok_iff⟩
  rw [ofText_append (Text.not_touching_iff.1 apart)]
  cases ofText a with
  | error f => rfl
  | ok ts =>
      cases ofText b with
      | error f => rfl
      | ok us => rfl

/-- `12+` and `3$` do not touch, and the stray character is the fifth of both together; a product
may be spaced out. -/
theorem scan_of_two_parts :
    (¬ Touching ['1', '2', '+'] ['3', '$'] ∧
      ofText ['1', '2', '+', '3', '$'] = .error (.unexpected '$' 4)) ∧
    (Respaced ['7', '×', '.', '5'] ['7', ' ', '×', '\t', '.', '5'] ∧
      ofText ['7', ' ', '×', '\t', '.', '5'] =
        .ok [.number 7.0, .operator .multiply, .number 0.5]) := by
  have apart : ¬ Touching ['1', '2', '+'] ['3', '$'] :=
    Text.not_touching_iff.2 (Or.inl (by simp [AdmitsRun]; decide))
  have first : ofText ['1', '2', '+'] = .ok [.number 12.0, .operator .add] := by decide +kernel
  have second : ofText ['3', '$'] = .error (.unexpected '$' 1) := by decide
  have together := scan_compositional.1 _ _ apart
  rw [first, second] at together
  have blank : Blanks [' '] := by simp [Blanks]; decide
  have tab : Blanks ['\t'] := by simp [Blanks]; decide
  have once : Respaced ['7', '×', '.', '5'] ['7', ' ', '×', '.', '5'] :=
    .insert (a := ['7']) (b := ['×', '.', '5']) .refl
      (Text.not_touching_iff.2 (Or.inr (Text.endsRun_cons.2 (by decide)))) blank
  have twice : Respaced ['7', '×', '.', '5'] ['7', ' ', '×', '\t', '.', '5'] :=
    .insert (a := ['7', ' ', '×']) (b := ['.', '5']) once
      (Text.not_touching_iff.2 (Or.inl (by simp [AdmitsRun]; decide))) tab
  have product : ofText ['7', '×', '.', '5'] =
      .ok [.number 7.0, .operator .multiply, .number 0.5] := by decide +kernel
  exact ⟨⟨apart, together⟩, twice, (scan_compositional.2 _ _ twice _).2 product⟩

/-! ### Inside a run -/

theorem exists_of_ofLexemes_numeral {position : Nat} {run : Text} {ls : List Lexeme}
    (h : ofLexemes position (.numeral run :: ls) = .ok ts) :
    ∃ x us, ofLexemes 0 ls = .ok us ∧ ts = .number x :: us := by
  rw [ofLexemes] at h
  split at h
  · rename_i x _
    cases scan : ofLexemes (position + run.length) ls with
    | error f =>
        rw [scan] at h
        cases h
    | ok us =>
        rw [scan] at h
        cases h
        exact ⟨x, us, ofLexemes_eq_ok_iff.1 scan, rfl⟩
  · cases h

/-- **Where two texts touch, two numbers become one.** -/
theorem numbers_of_touching (h : Touching a b) (ha : ofText a = .ok ts) (hb : ofText b = .ok us)
    (hab : ofText (a ++ b) = .ok vs) : ∃ front x y z rest,
      ts = front ++ [.number x] ∧ us = .number y :: rest ∧ vs = front ++ .number z :: rest := by
  obtain ⟨ls, run, run', ms, first, second, both⟩ := Lexeme.ofText_append_of_touching h
  rw [ofText, first, ofLexemes_append, inTurn_eq_ok_iff] at ha
  rw [ofText, second] at hb
  rw [ofText, both, ofLexemes_append, inTurn_eq_ok_iff] at hab
  obtain ⟨front, last, scanned, number, rfl⟩ := ha
  obtain ⟨x, none, nil, rfl⟩ := exists_of_ofLexemes_numeral number
  obtain ⟨y, rest, scannedRest, rfl⟩ := exists_of_ofLexemes_numeral hb
  obtain ⟨front', behind, scanned', joined, rfl⟩ := hab
  obtain ⟨z, rest', scannedRest', rfl⟩ := exists_of_ofLexemes_numeral joined
  rw [scanned] at scanned'
  rw [scannedRest] at scannedRest'
  cases nil
  cases scanned'
  cases scannedRest'
  exact ⟨front, x, y, z, rest, rfl, rfl, rfl⟩

/-- **Inside of a run every blank matters**: the text with the blank does not have the tokens that
it has without. -/
theorem ofText_ne_of_touching (h : Touching a b) (blanks : Blanks w) (nonempty : w ≠ [])
    (spaced : ofText (a ++ (w ++ b)) = .ok ts) : ofText (a ++ b) ≠ .ok ts := by
  intro joined
  obtain ⟨c, v, rfl⟩ := List.exists_cons_of_ne_nil nonempty
  have stops : EndsRun (c :: v ++ b) :=
    Text.isNumeral_eq_false_of_isBlank (blanks c List.mem_cons_self)
  rw [ofText_append (Or.inr stops), ofText_append (Or.inl blanks.admitsRun), ofText_blanks blanks,
    inTurn_nil_left, inTurn_eq_ok_iff] at spaced
  obtain ⟨us, vs, scanned, behind, rfl⟩ := spaced
  rw [mapError_eq_ok_iff, mapError_eq_ok_iff] at behind
  obtain ⟨front, x, y, z, rest, rfl, rfl, one⟩ := numbers_of_touching h scanned behind joined
  have lengths := congrArg List.length one
  simp only [List.length_append, List.length_cons, List.length_nil] at lengths
  omega

end Token

end HeartKeypad
