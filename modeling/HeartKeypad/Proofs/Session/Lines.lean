import HeartKeypad.Proofs.Session.Tally

/-!
# Lines of labels

A line is applied label by label, up to the first one that stands for no key.

* `Session.taps` — the turns in which labels are tapped one by one.
* `Session.tapAll_of_labels`, `Session.tapAll_of_unknown` — a line does what its labels do one
  by one, and is refused for the first unknown one.
* `Session.tapLine_append` — a line that is cut at a blank is as good as its two parts.
* `Session.line_up_to_unknown` — both, for every session and every line.

### The last response

A line is answered with the last response only, so a line of two parts is answered for its
second part, unless there is no label in it.  `Session.tapAll_of_labels` therefore starts from
any response at all.
-/

namespace HeartKeypad

/-! ### Words and blanks -/

namespace Text

variable {c : Char} {s t : Text}

/-- A text that starts with a word has one. -/
theorem words_ne_nil_of_startsWord (h : startsWord s = true) : words s ≠ [] := by
  cases s with
  | nil => cases h
  | cons c cs =>
      have solid : ¬ isBlank c = true := by simpa [startsWord] using h
      rw [words, if_neg solid]
      split
      · cases words cs <;> exact List.cons_ne_nil _ _
      · exact List.cons_ne_nil _ _

theorem joinFirst_append {ws : List Text} (h : ws ≠ []) (c : Char) (vs : List Text) :
    joinFirst c (ws ++ vs) = joinFirst c ws ++ vs := by
  cases ws with
  | nil => exact absurd rfl h
  | cons w ws => rfl

/-- **A blank cuts a text into the words on either side.** -/
theorem words_append_blank (h : isBlank c = true) (s t : Text) :
    words (s ++ c :: t) = words s ++ words t := by
  induction s with
  | nil => exact words_cons_blank h t
  | cons d ds ih =>
      have starts : startsWord (ds ++ c :: t) = startsWord ds := by
        cases ds with
        | nil => simp [startsWord, h]
        | cons e es => rfl
      rw [List.cons_append, words, words, ih, starts]
      split
      · rfl
      split
      · rename_i word
        exact joinFirst_append (words_ne_nil_of_startsWord word) d _
      · rfl

/-- A word has no blanks around it. -/
theorem trim_of_mem_words {w : Text} (h : w ∈ words s) : w.trim = w := by
  have solid := words_not_isBlank s w h
  have start (v : Text) (hv : ∀ c ∈ v, isBlank c = false) : v.dropWhile isBlank = v := by
    cases v with
    | nil => rfl
    | cons c cs => rw [List.dropWhile_cons_of_neg (by simp [hv c List.mem_cons_self])]
  rw [trim, trimStart, start w solid, trimEnd,
    start _ fun c hc => solid c (List.mem_reverse.1 hc), List.reverse_reverse]

end Text

/-- **The text stands for a key.** -/
def Key.IsLabel (label : Text) : Prop := ∃ k, ofLabel label = .ok k

/-- A text that stands for no key is refused without the blanks around it. -/
theorem Key.ofLabel_of_not_isLabel {label : Text} (h : ¬ IsLabel label) :
    ofLabel label = .error ⟨label.trim⟩ := by
  cases known : ofLabel label with
  | ok k => exact absurd ⟨k, known⟩ h
  | error e =>
      unfold ofLabel at known
      dsimp only at known
      split at known
      · cases known
      · exact known.symm

namespace Session

variable {s : Session} {label : Text} {labels before behind : List Text}

/-- The turns in which labels are tapped one after the other. -/
def taps (labels : List Text) : List Turn := labels.map .tap

/-- What comes of a line, and then of another one: the first refusal, or the response to the
last label of both. -/
def following (second : Session → Except UnknownLabel (Option Response) × Session) :
    Except UnknownLabel (Option Response) × Session →
      Except UnknownLabel (Option Response) × Session
  | (.error e, s) => (.error e, s)
  | (.ok last, s) =>
    let (result, s) := second s
    (result.map fun last' => last'.or last, s)

/-! ### Label by label -/

theorem tapAll_cons (last : Option Response) (label : Text) (labels : List Text) (s : Session) :
    tapAll last (label :: labels) s = match Key.ofLabel label with
      | .ok k => tapAll (some (s.press k).1) labels (s.press k).2
      | .error e => (.error e, s) := by
  rw [tapAll, tap]
  cases Key.ofLabel label <;> rfl

/-- Labels that all stand for keys are applied one by one, and answered for the last of them. -/
theorem tapAll_of_labels (known : ∀ l ∈ labels, Key.IsLabel l) (last : Option Response) :
    ∃ last' : Option Response,
      tapAll last labels s = (.ok (last'.or last), s.after (taps labels)) ∧
      (s.answers (taps labels)).getLast? = last'.map .ok := by
  induction labels generalizing s last with
  | nil => exact ⟨none, rfl, rfl⟩
  | cons label labels ih =>
      obtain ⟨⟨k, key⟩, rest⟩ := List.forall_mem_cons.1 known
      obtain ⟨last', tapped, answered⟩ := ih (s := (s.press k).2) rest (some (s.press k).1)
      refine ⟨last'.or (some (s.press k).1), ?_, ?_⟩
      · rw [tapAll_cons, key]
        dsimp only
        rw [tapped, Option.or_assoc]
        show _ = (_, after (taps labels) (s.turn (.tap label)).2)
        rw [turn_tap, key]
        rfl
      · show ((s.turn (.tap label)).1.toList ++
          answers (taps labels) (s.turn (.tap label)).2).getLast? = _
        rw [turn_tap, key, List.getLast?_append, answered]
        cases last' <;> rfl

/-- The first label that stands for no key ends the line; those behind it are not looked at. -/
theorem tapAll_of_unknown (known : ∀ l ∈ before, Key.IsLabel l) (unknown : ¬ Key.IsLabel label)
    (behind : List Text) (last : Option Response) :
    tapAll last (before ++ label :: behind) s =
      (.error ⟨label.trim⟩, s.after (taps before)) := by
  induction before generalizing s last with
  | nil =>
      rw [List.nil_append, tapAll_cons, Key.ofLabel_of_not_isLabel unknown]
      rfl
  | cons l before ih =>
      obtain ⟨⟨k, key⟩, rest⟩ := List.forall_mem_cons.1 known
      rw [List.cons_append, tapAll_cons, key]
      dsimp only
      rw [ih rest]
      show _ = (_, after (taps before) (s.turn (.tap l)).2)
      rw [turn_tap, key]

/-! ### Two lines -/

/-- The response to start from counts only where there is no label. -/
theorem tapAll_last (last : Option Response) (labels : List Text) (s : Session) :
    tapAll last labels s = following (tapAll none labels) (.ok last, s) := by
  induction labels generalizing last s with
  | nil => rfl
  | cons label labels ih =>
      rw [following, tapAll_cons, tapAll_cons]
      cases Key.ofLabel label with
      | error e => rfl
      | ok k =>
          dsimp only
          rw [ih, following]
          rcases tapAll none labels (s.press k).2 with ⟨e | _ | r, t⟩ <;> rfl

/-- **Labels behind other labels** are tapped if none of these is refused. -/
theorem tapAll_append (last : Option Response) (first rest : List Text) (s : Session) :
    tapAll last (first ++ rest) s = following (tapAll none rest) (tapAll last first s) := by
  induction first generalizing last s with
  | nil => exact tapAll_last last rest s
  | cons label first ih =>
      rw [List.cons_append, tapAll_cons, tapAll_cons]
      cases Key.ofLabel label with
      | error e => rfl
      | ok k => exact ih _ _

/-- **A line that is cut at a blank** is as good as its two parts. -/
theorem tapLine_append {c : Char} (blank : Text.isBlank c = true) (a b : Text) (s : Session) :
    s.tapLine (a ++ c :: b) = following (fun s => s.tapLine b) (s.tapLine a) := by
  rw [tapLine, Text.words_append_blank blank, tapAll_append]
  rfl

/-! ### Lines -/

/-- **A line is applied up to its first unknown label.**  If all its labels stand for keys, it
does what they do one by one and is answered for the last of them, if there is one.  Otherwise
it does what the labels in front of the first unknown one do, and is refused for that one.  So
what comes of a line that is cut at a blank is what comes of its first part and, unless that is
refused, of its second. -/
theorem line_up_to_unknown (s : Session) :
    (∀ line : Text, (∀ l ∈ line.words, Key.IsLabel l) → ∃ last : Option Response,
      s.tapLine line = (.ok last, s.after (taps line.words)) ∧
      (s.answers (taps line.words)).getLast? = last.map .ok) ∧
    (∀ (line : Text) before label behind, line.words = before ++ label :: behind →
      (∀ l ∈ before, Key.IsLabel l) → ¬ Key.IsLabel label →
      s.tapLine line = (.error ⟨label⟩, s.after (taps before))) ∧
    ∀ a b c, Text.isBlank c = true →
      s.tapLine (a ++ c :: b) = following (fun s => s.tapLine b) (s.tapLine a) := by
  refine ⟨fun line known => ?_, fun line before label behind split known unknown => ?_,
    fun a b c blank => tapLine_append blank a b s⟩
  · obtain ⟨last, tapped, answered⟩ := tapAll_of_labels (s := s) known none
    rw [Option.or_none] at tapped
    exact ⟨last, tapped, answered⟩
  · have word : label.trim = label := by
      refine Text.trim_of_mem_words (s := line) ?_
      rw [split]
      exact List.mem_append_right _ List.mem_cons_self
    have tapped := tapAll_of_unknown (s := s) known unknown behind none
    rwa [word, ← split] at tapped

/-- A seven, something that is no label, and an eight that is never tapped, in front of it and
behind it a line that is cut at a wide blank. -/
theorem line_up_to_question_mark :
    let s := start {} ⟨[], 1⟩ ⟨0⟩ fun _ => true
    (∃ last : Option Response,
      s.tapLine ['7', '\u3000', '+'] = (.ok last, s.after (taps [['7'], ['+']])) ∧
      (s.answers (taps [['7'], ['+']])).getLast? = last.map .ok) ∧
    s.tapLine ['7', ' ', '?', ' ', '8'] = (.error ⟨['?']⟩, s.after (taps [['7']])) ∧
    s.tapLine ['7', '\u3000', '+'] =
      following (fun s => s.tapLine ['+']) (s.tapLine ['7']) := by
  intro s
  have seven : Key.IsLabel ['7'] := ⟨.digit 7, by decide⟩
  have plus : Key.IsLabel ['+'] := ⟨.mark .add, by decide⟩
  have unknown : ¬ Key.IsLabel ['?'] := by
    have refused : Key.ofLabel ['?'] = .error ⟨['?']⟩ := by decide
    rintro ⟨k, known⟩
    rw [refused] at known
    cases known
  obtain ⟨whole, stopped, cut⟩ := line_up_to_unknown s
  refine ⟨whole ['7', '\u3000', '+'] ?_,
    stopped ['7', ' ', '?', ' ', '8'] [['7']] ['?'] [['8']] (by decide) ?_ unknown,
    cut ['7'] ['+'] '\u3000' (by decide)⟩
  · show ∀ l ∈ [['7'], ['+']], Key.IsLabel l
    simp [seven, plus]
  · simp [seven]

end Session

end HeartKeypad
