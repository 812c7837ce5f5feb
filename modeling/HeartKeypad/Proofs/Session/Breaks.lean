import HeartKeypad.Proofs.Calculator.Display
import HeartKeypad.Proofs.Session.Lines
import HeartKeypad.Proofs.Text.Utf8
import HeartKeypad.Terminal

/-!
# Line breaks do not matter

Labels can be written on one line or on many, with blanks of any kind between them and blank
lines in between: what `state` answers behind them is the face of a calculator on which their
keys were pressed one after the other.  What stands behind `quit` or `exit` is not read.

* `Terminal.Arrival`, `Terminal.paced` — lines that come while the stage goes on by itself.
* `Terminal.Breaks` — a way of breaking labels into lines.
* `Terminal.Reaches` — the lines do not end the terminal, and what they print.
* `Terminal.state_of_labels` — what `state` answers, and what `quit` leaves unread.

### Keywords

A line that holds labels only is never taken for a keyword: blanks around a text do not change
its words (`Text.words_trim`), so a line that reads `quit` without the blanks around it has one
word, and that word is no label.
-/

namespace HeartKeypad

/-! ### Words without the blanks around them -/

namespace Text

variable {s t : Text}

/-- Blanks in front of a text add no word. -/
theorem words_trimStart (s : Text) : words s.trimStart = words s := by
  unfold trimStart
  induction s with
  | nil => rfl
  | cons c cs ih =>
      by_cases blank : isBlank c = true
      · rw [List.dropWhile_cons_of_pos blank, ih, words_cons_blank blank]
      · rw [List.dropWhile_cons_of_neg blank]

/-- Nor do blanks behind it. -/
theorem words_append_blanks (blanks : ∀ c ∈ t, isBlank c = true) :
    words (s ++ t) = words s := by
  induction t generalizing s with
  | nil => rw [List.append_nil]
  | cons c t ih =>
      obtain ⟨first, others⟩ := List.forall_mem_cons.1 blanks
      have none : words t = [] := ih (s := []) others
      rw [words_append_blank first, none, List.append_nil]

theorem words_trimEnd (s : Text) : words s.trimEnd = words s := by
  have split : s = s.trimEnd ++ (s.reverse.takeWhile isBlank).reverse := by
    rw [trimEnd, ← List.reverse_append, List.takeWhile_append_dropWhile, List.reverse_reverse]
  have blanks : ∀ c ∈ (s.reverse.takeWhile isBlank).reverse, isBlank c = true := by
    intro c hc
    exact List.mem_takeWhile_imp (List.mem_reverse.1 hc)
  conv_rhs => rw [split]
  exact (words_append_blanks blanks).symm

/-- **The words of a text do not depend on the blanks around it.** -/
theorem words_trim (s : Text) : words s.trim = words s := by
  rw [trim, words_trimEnd, words_trimStart]

end Text

namespace Request

variable {text : Text}

/-- **A line that holds labels only is no keyword.** -/
theorem ofLine_of_labels (known : ∀ l ∈ text.words, Key.IsLabel l) :
    ofLine text = .nothing ∧ text.words = [] ∨ ofLine text = .taps text.trim := by
  have other (keyword : Text) (word : keyword.words = [keyword])
      (unknown : Key.ofLabel keyword = .error ⟨keyword⟩) : text.trim ≠ keyword := by
    intro same
    have one : text.words = [keyword] := by rw [← Text.words_trim, same, word]
    obtain ⟨k, label⟩ := known keyword (one ▸ List.mem_singleton_self keyword)
    rw [unknown] at label
    cases label
  have quit : text.trim ≠ "quit".toList := other _ (by decide) (by decide)
  have exit : text.trim ≠ "exit".toList := other _ (by decide) (by decide)
  have hearts : text.trim ≠ "hearts".toList := other _ (by decide) (by decide)
  have state : text.trim ≠ "state".toList := other _ (by decide) (by decide)
  by_cases bare : text.trim = []
  · refine Or.inl ⟨?_, ?_⟩
    · simp only [ofLine, if_pos bare]
    · rw [← Text.words_trim, bare, Text.words_nil]
  · refine Or.inr ?_
    simp only [ofLine, if_neg bare, quit, exit, hearts, state, or_self, if_false]

end Request

namespace Terminal

/-! ### Lines that come in time -/

/-- A line, and what its stage does by itself before it comes: it handles letters, lets time
pass, beats, or closes. -/
structure Arrival where
  meanwhile : Stage → Stage
  line : List UInt8

/-- The terminal once its stage has changed by itself. -/
def meanwhile (change : Stage → Stage) (t : Terminal) : Terminal :=
  { t with session := { t.session with stage := change t.session.stage } }

/-- Answers a line that has come. -/
def arrive (a : Arrival) (t : Terminal) : Turn := (t.meanwhile a.meanwhile).turn a.line

/-- Answers lines that come one after the other. -/
def paced (t : Terminal) : List Arrival → List Print × Except Failure Unit
  | [] => ([], t.finish)
  | a :: script =>
    match t.arrive a with
    | .ends result => ([], result)
    | .goesOn printed t => (printed ++ (paced t script).1, (paced t script).2)

/-- Lines that come at once. -/
def atOnce (lines : List (List UInt8)) : List Arrival := lines.map (Arrival.mk id)

/-- To answer lines is to answer them as they come at once. -/
theorem run_eq_paced (t : Terminal) (lines : List (List UInt8)) :
    t.run lines = t.paced (atOnce lines) := by
  induction lines generalizing t with
  | nil => rfl
  | cons line lines ih =>
      rw [run, atOnce, List.map_cons, paced]
      show _ = match t.turn line with
        | .ends result => ([], result)
        | .goesOn printed t => _
      cases t.turn line with
      | ends result => rfl
      | goesOn printed t =>
          dsimp only
          rw [ih]
          rfl

/-- To wait for a line leaves time to the stage. -/
theorem wait_eq_meanwhile (clock : Clock) (milliseconds : Nat) (t : Terminal) :
    t.wait clock milliseconds =
      t.meanwhile fun stage => (stage.setClock clock).elapse milliseconds := rfl

/-- The line reads so, without the blanks around it. -/
def Arrival.Reads (a : Arrival) (bare : Text) : Prop :=
  ∃ text, Utf8.decode a.line = .ok text ∧ text.trim = bare

/-- The line holds these words. -/
def Arrival.Holds (a : Arrival) (words : List Text) : Prop :=
  ∃ text, Utf8.decode a.line = .ok text ∧ text.words = words

/-- **A way of breaking labels into lines**; some of the lines may be blank. -/
inductive Breaks : List Arrival → List Text → Prop
  | nil : Breaks [] []
  | cons {a : Arrival} {script : List Arrival} {words labels : List Text} :
      a.Holds words → Breaks script labels → Breaks (a :: script) (words ++ labels)

/-- **The terminal goes on after these lines**: they print this, and it has come so far. -/
inductive Reaches : Terminal → List Arrival → List Print → Terminal → Prop
  | nil (t : Terminal) : Reaches t [] [] t
  | cons {t u v : Terminal} {a : Arrival} {script : List Arrival} {printed more : List Print} :
      t.arrive a = .goesOn printed u → Reaches u script more v →
        Reaches t (a :: script) (printed ++ more) v

variable {t u : Terminal} {a : Arrival} {script more : List Arrival} {printed : List Print}
  {labels : List Text}

/-- Lines behind them are answered from there. -/
theorem Reaches.paced_append (reaches : Reaches t script printed u) (more : List Arrival) :
    t.paced (script ++ more) = (printed ++ (u.paced more).1, (u.paced more).2) := by
  induction reaches with
  | nil t => rfl
  | cons now _ ih =>
      rw [List.cons_append, paced, now]
      dsimp only
      rw [ih, List.append_assoc]

/-- A line that can be read is answered, and the stage may have gone on before. -/
theorem arrive_of_decode {text : Text} (decoded : Utf8.decode a.line = .ok text) (t : Terminal) :
    t.arrive a = (t.meanwhile a.meanwhile).answer (Request.ofLine text) := by
  rw [arrive, turn, decoded]

/-! ### Lines of labels -/

/-- **A line of labels** taps their keys, and the terminal goes on. -/
theorem goesOn_of_labels {words : List Text} (holds : a.Holds words)
    (known : ∀ l ∈ words, Key.IsLabel l) :
    ∃ printed u, t.arrive a = .goesOn printed u ∧
      u.session.calculator = t.session.calculator.run (Session.keys words) := by
  obtain ⟨text, decoded, rfl⟩ := holds
  rw [arrive_of_decode decoded]
  -- the calculator has not heard of what the stage did
  have unheard : (t.meanwhile a.meanwhile).session.calculator = t.session.calculator := rfl
  rw [← unheard]
  generalize t.meanwhile a.meanwhile = t
  rcases Request.ofLine_of_labels known with ⟨nothing, none⟩ | taps
  · rw [nothing, none]
    exact ⟨_, _, rfl, rfl⟩
  · obtain ⟨last, tapped, -⟩ := Session.tapAll_of_labels (s := t.session) known none
    rw [← Text.words_trim text] at tapped
    have all : Session.labels (Session.taps text.trim.words) = text.words := by
      rw [Session.labels, Session.taps, List.filterMap_map, Text.words_trim]
      exact List.filterMap_some
    have pressed := Session.calculator_after (Session.taps text.trim.words) t.session
    rw [all] at pressed
    rw [taps, answer, Session.tapLine, tapped]
    cases last.or none with
    | none => exact ⟨_, _, rfl, pressed⟩
    | some r => exact ⟨_, _, rfl, pressed⟩

/-- **However labels are broken into lines**, the terminal goes on after them, and their keys
have been pressed one after the other. -/
theorem Breaks.reaches (breaks : Breaks script labels) (known : ∀ l ∈ labels, Key.IsLabel l) :
    ∃ printed u, Reaches t script printed u ∧
      u.session.calculator = t.session.calculator.run (Session.keys labels) := by
  induction breaks generalizing t with
  | nil => exact ⟨[], t, .nil t, rfl⟩
  | @cons a script words labels holds _ ih =>
      obtain ⟨first, rest⟩ := List.forall_mem_append.1 known
      obtain ⟨now, v, goesOn, pressed⟩ := goesOn_of_labels (t := t) holds first
      obtain ⟨later, u, reaches, face⟩ := ih (t := v) rest
      refine ⟨now ++ later, u, .cons goesOn reaches, ?_⟩
      rw [face, pressed, Session.keys_append, Calculator.run, Calculator.run, Calculator.run,
        List.foldl_append]

/-! ### Keywords -/

theorem arrive_state (reads : a.Reads "state".toList) :
    ∃ u, t.arrive a = .goesOn [.output t.session.calculator.toFace.toJson.compact] u := by
  obtain ⟨text, decoded, bare⟩ := reads
  have request : Request.ofLine text = .state := by
    rw [Request.ofLine, bare]
    rfl
  rw [arrive_of_decode decoded, request]
  exact ⟨_, rfl⟩

theorem arrive_quit (reads : a.Reads "quit".toList ∨ a.Reads "exit".toList) :
    ∃ result, t.arrive a = .ends result := by
  obtain ⟨text, decoded, quit⟩ : ∃ text, Utf8.decode a.line = .ok text ∧
      Request.ofLine text = .quit := by
    rcases reads with ⟨text, decoded, bare⟩ | ⟨text, decoded, bare⟩
    all_goals
      refine ⟨text, decoded, ?_⟩
      rw [Request.ofLine, bare]
      rfl
  rw [arrive_of_decode decoded, quit]
  exact ⟨_, rfl⟩

/-- A line that ends the terminal is the last one that is read. -/
theorem paced_of_ends (ends : ∀ t : Terminal, ∃ result, t.arrive a = .ends result)
    (script more : List Arrival) (t : Terminal) :
    t.paced (script ++ a :: more) = t.paced (script ++ [a]) := by
  induction script generalizing t with
  | nil =>
      obtain ⟨result, last⟩ := ends t
      rw [List.nil_append, List.nil_append, paced, paced, last]
  | cons b script ih =>
      rw [List.cons_append, List.cons_append, paced, paced]
      cases t.arrive b with
      | ends result => rfl
      | goesOn printed u =>
          dsimp only
          rw [ih]

/-! ### The session -/

/-- What `state` answers behind some labels. -/
def stateText (labels : List Text) : Text :=
  ((Calculator.fresh []).run (Session.keys labels)).toFace.toJson.compact

/-- The chosen easter egg does not show on any face. -/
theorem toFace_run_congr {c d : Calculator} (same : c.toFace = d.toFace) (keys : List Key) :
    (c.run keys).toFace = (d.run keys).toFace := by
  induction keys generalizing c d with
  | nil => exact same
  | cons k keys ih => exact ih (Calculator.toFace_press_congr same k)

/-- **`state` behind labels**, from a fresh face. -/
theorem paced_state (fresh : t.session.calculator.toFace = (Calculator.fresh []).toFace)
    (known : ∀ l ∈ labels, Key.IsLabel l) (breaks : Breaks script labels)
    (asked : a.Reads "state".toList) (more : List Arrival) :
    ∃ rest, (t.paced (script ++ a :: more)).1 =
      (t.paced script).1 ++ .output (stateText labels) :: rest := by
  obtain ⟨printed, u, reaches, pressed⟩ := breaks.reaches (t := t) known
  obtain ⟨v, answered⟩ := arrive_state (t := u) asked
  have shown : u.session.calculator.toFace.toJson.compact = stateText labels := by
    rw [pressed, toFace_run_congr fresh, stateText]
  have alone : (t.paced script).1 = printed := by
    have whole := reaches.paced_append []
    rw [List.append_nil] at whole
    rw [whole]
    exact List.append_nil printed
  refine ⟨(v.paced more).1, ?_⟩
  rw [reaches.paced_append, alone, paced, answered, shown]
  rfl

/-- **Line breaks do not matter**, whatever the settings are, wherever the hearts' numbers come
from, and whatever the stage does between two lines.  All ways of breaking labels into lines lead
to the same answer to `state` behind them: the face of a calculator on which their keys were
pressed.  Behind `quit` or `exit` no line has an effect, neither on what is printed nor on how
the terminal ends.  Lines that come at once are answered so. -/
theorem state_of_labels (known : ∀ l ∈ labels, Key.IsLabel l) :
    (∀ script, Breaks script labels → ∀ a : Arrival, a.Reads "state".toList →
      ∀ settings seed clock more, ∃ rest,
        ((start settings seed clock).paced (script ++ a :: more)).1 =
          ((start settings seed clock).paced script).1 ++ .output (stateText labels) :: rest) ∧
    (∀ a : Arrival, a.Reads "quit".toList ∨ a.Reads "exit".toList →
      ∀ (t : Terminal) script more, t.paced (script ++ a :: more) = t.paced (script ++ [a])) ∧
    ∀ (t : Terminal) lines, t.run lines = t.paced (atOnce lines) := by
  refine ⟨fun script breaks a asked settings seed clock more => ?_,
    fun a quits t script more => ?_, run_eq_paced⟩
  · exact paced_state rfl known breaks asked more
  · exact paced_of_ends (fun t => arrive_quit quits) script more t

/-- A line with its newline, which comes at once. -/
def typed (text : String) : Arrival := ⟨id, Utf8.encode (text.toList ++ ['\n'])⟩

/-- `1`, `2` and `×` on one line, and on three with a blank one, a closed stage and a wide blank
among them. -/
theorem state_of_twelve_times :
    stateText [['1'], ['2'], ['×']] =
        "\x7b\"display\":\"12×\",\"editMode\":\"editing\"\x7d".toList ∧
      (∃ rest, ((start {} 1 ⟨0⟩).paced [typed "1 2 ×", typed "state", typed "hearts"]).1 =
        ((start {} 1 ⟨0⟩).paced [typed "1 2 ×"]).1 ++
          .output (stateText [['1'], ['2'], ['×']]) :: rest) ∧
      ∃ rest, ((start {} 2 ⟨5⟩).paced [typed "1\u30002", typed " ",
          { typed "×" with meanwhile := Stage.close }, typed " state ", typed "quit",
          typed "state"]).1 =
        ((start {} 2 ⟨5⟩).paced [typed "1\u30002", typed " ",
          { typed "×" with meanwhile := Stage.close }]).1 ++
          .output (stateText [['1'], ['2'], ['×']]) :: rest := by
  have known : ∀ l ∈ [['1'], ['2'], ['×']], Key.IsLabel l := by
    have one : Key.IsLabel ['1'] := ⟨.digit 1, by decide⟩
    have two : Key.IsLabel ['2'] := ⟨.digit 2, by decide⟩
    have times : Key.IsLabel ['×'] := ⟨.mark .multiply, by decide⟩
    simp [one, two, times]
  have holds (text : String) (change : Stage → Stage) (words : List Text)
      (same : Text.words (text.toList ++ ['\n']) = words) :
      ({ typed text with meanwhile := change }).Holds words :=
    ⟨_, Utf8.decode_encode _, same⟩
  have reads (text : String) (bare : Text) (same : Text.trim (text.toList ++ ['\n']) = bare) :
      (typed text).Reads bare := ⟨_, Utf8.decode_encode _, same⟩
  have first : Breaks [typed "1 2 ×"] [['1'], ['2'], ['×']] :=
    .cons (holds "1 2 ×" id [['1'], ['2'], ['×']] (by decide)) .nil
  have second : Breaks [typed "1\u30002", typed " ", { typed "×" with meanwhile := Stage.close }]
      [['1'], ['2'], ['×']] :=
    .cons (holds "1\u30002" id [['1'], ['2']] (by decide))
      (.cons (holds " " id [] (by decide))
        (.cons (holds "×" Stage.close [['×']] (by decide)) .nil))
  have answered := (state_of_labels known).1
  exact ⟨by decide,
    answered _ first (typed "state") (reads "state" _ (by decide)) {} 1 ⟨0⟩ [typed "hearts"],
    answered _ second (typed " state ") (reads " state " _ (by decide)) {} 2 ⟨5⟩
      [typed "quit", typed "state"]⟩

end Terminal

end HeartKeypad
