import HeartKeypad.Json.Boundary
import HeartKeypad.Proofs.Json.Writing

/-!
# The calculator's types survive as JSON

Each type has one form that is written, and more that are read.  The spellings of a value are
described by what is written for it, and they are all that is read; the form that is written is
one of them, so a value survives whatever spelling it came from.

* `Json.Spelling` — the spellings of a name, with content or without.
* `Face.Spelled`, `Outcome.Spelled` — those of a record.
* `Json.Holds` — an integer stands somewhere in a value.
* `Json.Survives` — what holds of a type that survives.
* `Key.digitLabels` — a table of the labels of all digit keys.
* `Json.types_survive` — signals, outcomes, faces and keys survive.

### Digits

Digits are the only numbers in these types.  A number is read as a digit only if it is at most
nine, so that the table of labels has an entry for every digit that was read.
-/

namespace HeartKeypad

namespace Json

/-- **The spellings of a name**, by what is written for it: the same, and for a name without
content an object with that single field, which holds null. -/
inductive Spelling : Json → Json → Prop
  | same (written : Json) : Spelling written written
  | null (name : Text) : Spelling (.string name) (.object [(name, .null)])

/-- **The spellings of a record**, by the contents of its fields: an object with these fields,
where others may stand between them and a content that is missing has no field, and an array of
the contents in order. -/
inductive Record (names : List String) : List (Option Json) → Json → Prop
  | fields (fs : List (Text × Json)) :
      Record names (names.map fun name => fs.lookup name.toList) (.object fs)
  | places {vs : List Json} : vs.length = names.length → Record names (vs.map some) (.array vs)

/-- **The spellings of a value that may be absent**: missing, null, or those of the value. -/
inductive Optional {α : Type} (toJson : α → Json) : Option Json → Option α → Prop
  | missing : Optional toJson none none
  | null : Optional toJson (some .null) none
  | given {v : α} {j : Json} : Spelling (toJson v) j → Optional toJson (some j) (some v)

/-- The integer stands somewhere in the value. -/
inductive Holds (n : Int) : Json → Prop
  | here : Holds n (.integer n)
  | value {v : Json} {vs : List Json} : v ∈ vs → Holds n v → Holds n (.array vs)
  | field {f : Text × Json} {fs : List (Text × Json)} : f ∈ fs → Holds n f.2 →
      Holds n (.object fs)

/-- **A type survives as JSON**: values are read exactly from their spellings. -/
structure Survives {α : Type} (toJson : α → Json) (ofJson? : Json → Option α)
    (Spells : Json → α → Prop) : Prop where
  /-- A value is read from its spellings, and from nothing else. -/
  read_iff : ∀ j v, ofJson? j = some v ↔ Spells j v
  /-- What is written for a value is read back as that value. -/
  reread : ∀ v, ofJson? (toJson v) = some v
  /-- So is the text of what is written. -/
  retext : ∀ v, (read? (toJson v).compact).bind ofJson? = some v
  /-- What is written for a value that was read is read back as that value. -/
  respelled : ∀ j v, ofJson? j = some v → ofJson? (toJson v) = some v
  /-- All numbers in what is written are digits. -/
  digits : ∀ v n, Holds n (toJson v) → 0 ≤ n ∧ n ≤ 9

/-! ### Names -/

variable {j : Json} {name : Text}

/-- A name stands alone or with content; nothing else holds one. -/
theorem tagged?_cases (j : Json) :
    (∃ name, j = .string name) ∨ (∃ name content, j = .object [(name, content)]) ∨
      j.tagged? = none := by
  cases j with
  | string name => exact Or.inl ⟨name, rfl⟩
  | object fields =>
      rcases fields with _ | ⟨⟨name, content⟩, _ | ⟨g, fields⟩⟩
      · exact Or.inr (Or.inr rfl)
      · exact Or.inr (Or.inl ⟨name, content, rfl⟩)
      · exact Or.inr (Or.inr rfl)
  | null | bool _ | integer _ | real _ | array _ => exact Or.inr (Or.inr rfl)

/-- A name without content is read from its spellings. -/
theorem name?_eq_some_iff : j.name? = some name ↔ Spelling (.string name) j := by
  constructor
  · intro h
    rcases tagged?_cases j with ⟨n, rfl⟩ | ⟨n, content, rfl⟩ | none
    · cases h
      exact .same _
    · cases content with
      | null =>
          cases h
          exact .null _
      | bool _ | integer _ | real _ | string _ | array _ | object _ => cases h
    · rw [name?, none] at h
      cases h
  · rintro (_ | _) <;> rfl

/-! ### Records -/

theorem record?_eq_some_iff {names : List String} {contents : List (Option Json)} :
    j.record? names = some contents ↔ Record names contents j := by
  constructor
  · intro h
    unfold record? at h
    split at h
    · cases h
      exact .fields _
    · split_ifs at h with length
      cases h
      exact .places length
    · cases h
  · rintro (_ | length)
    · rfl
    · exact if_pos length

theorem text?_eq_some_iff {s : Text} : j.text? = some s ↔ j = .string s := by
  constructor
  · intro h
    cases j with
    | string t => cases h; rfl
    | null | bool _ | integer _ | real _ | array _ | object _ => cases h
  · rintro rfl
    rfl

theorem optional?_eq_some_iff {α : Type} {toJson : α → Json} {read : Json → Option α}
    (spells : ∀ {j v}, read j = some v ↔ Spelling (toJson v) j) (none : read .null = none)
    {content : Option Json} {value : Option α} :
    optional? read content = some value ↔ Optional toJson content value := by
  constructor
  · intro h
    unfold optional? at h
    split at h
    · cases h
      exact .missing
    · cases h
      exact .null
    · obtain ⟨v, given, rfl⟩ := Option.map_eq_some_iff.1 h
      exact .given (spells.1 given)
  · rintro (_ | _ | @⟨v, j, spelling⟩)
    · rfl
    · rfl
    · have given := spells.2 spelling
      have present : j ≠ .null := by
        rintro rfl
        rw [none] at given
        cases given
      rw [optional?, given]
      · rfl
      · exact present

end Json

open Json (Spelling)

/-! ### Digits and names of keys -/

namespace Digit

/-- **A digit is read from its number only.** -/
theorem ofJson?_eq_some_iff {j : Json} {d : Digit} : ofJson? j = some d ↔ j = d.toJson := by
  constructor
  · intro h
    obtain ⟨n, number, digit⟩ := Option.bind_eq_some_iff.1 h
    unfold Json.nat? at number
    split at number
    · cases number
      rw [toJson, ofNat?_eq_some_iff.1 digit]
      rfl
    · cases number
  · rintro rfl
    exact ofNat?_eq_some_iff.2 rfl

/-- A number is read as a digit iff it is at most nine. -/
theorem ofJson?_integer_iff {n : Int} :
    (∃ d, ofJson? (.integer n) = some d) ↔ 0 ≤ n ∧ n ≤ 9 := by
  constructor
  · rintro ⟨d, read⟩
    cases ofJson?_eq_some_iff.1 read
    have small := d.isLt
    omega
  · rintro ⟨low, high⟩
    refine ⟨⟨n.toNat, by omega⟩, ofJson?_eq_some_iff.2 ?_⟩
    rw [toJson]
    exact congrArg Json.integer (Int.toNat_of_nonneg low).symm

end Digit

namespace Mark

theorem ofName?_eq_some_iff {name : Text} {m : Mark} :
    ofName? name = some m ↔ name = m.name.toList := by
  constructor
  · intro h
    have found : (m.name.toList == name) = true :=
      List.find?_some (p := fun m : Mark => m.name.toList == name) h
    exact (beq_iff_eq.1 found).symm
  · rintro rfl
    cases m <;> rfl

end Mark

namespace Key

/-- A key without content is read from the name that is written for it. -/
theorem plainName?_eq_some_iff {name : Text} {k : Key} :
    plainName? name = some k ↔ k.toJson = .string name := by
  constructor
  · intro h
    unfold plainName? at h
    split_ifs at h with equal clear percent negate
    · cases h; rw [equal]; rfl
    · cases h; rw [clear]; rfl
    · cases h; rw [percent]; rfl
    · cases h; rw [negate]; rfl
    · obtain ⟨m, mark, rfl⟩ := Option.map_eq_some_iff.1 h
      rw [Mark.ofName?_eq_some_iff.1 mark]
      rfl
  · intro h
    cases k with
    | digit d => cases h
    | mark m => cases h; cases m <;> rfl
    | equal | clear | percent | negate => cases h; rfl

theorem ofJson?_toJson (k : Key) : ofJson? k.toJson = some k := by
  cases k with
  | digit d =>
      show (Digit.ofJson? d.toJson).map Key.digit = _
      rw [Digit.ofJson?_eq_some_iff.2 rfl]
      rfl
  | mark m => cases m <;> rfl
  | equal | clear | percent | negate => rfl

/-- **A key is read from its spellings**, and from nothing else. -/
theorem ofJson?_eq_some_iff {j : Json} {k : Key} :
    ofJson? j = some k ↔ Spelling k.toJson j := by
  constructor
  · intro h
    rcases Json.tagged?_cases j with ⟨name, rfl⟩ | ⟨name, content, rfl⟩ | none
    · unfold ofJson? at h
      dsimp only [Json.tagged?] at h
      split_ifs at h with tag
      · cases h
      · rw [plainName?_eq_some_iff.1 h]
        exact .same _
    · unfold ofJson? at h
      dsimp only [Json.tagged?] at h
      split_ifs at h with tag
      · obtain ⟨d, digit, rfl⟩ := Option.map_eq_some_iff.1 h
        rw [Digit.ofJson?_eq_some_iff.1 digit, tag]
        exact .same _
      · obtain ⟨plain, named, key⟩ := Option.bind_eq_some_iff.1 h
        rw [plainName?_eq_some_iff.1 key]
        exact Json.name?_eq_some_iff.1 named
    · rw [ofJson?, none] at h
      cases h
  · intro h
    generalize written : k.toJson = w at h
    cases h with
    | same => rw [← written, ofJson?_toJson]
    | null name =>
        have plain : plainName? name = some k := plainName?_eq_some_iff.2 written
        have other : name ≠ "digit".toList := by
          rintro rfl
          cases plain
        show (if name = "digit".toList then _ else (some name).bind plainName?) = _
        rw [if_neg other]
        exact plain

/-- The labels of the digit keys, from zero on. -/
def digitLabels : List Text :=
  [['0'], ['1'], ['2'], ['3'], ['4'], ['5'], ['6'], ['7'], ['8'], ['9']]

/-- **The table of labels** has an entry for every digit, which is the label of its key. -/
theorem getElem?_digitLabels (d : Digit) : digitLabels[d.val]? = some (digit d).label := by
  revert d
  decide

end Key

/-! ### Modes and signals -/

namespace Mode

theorem ofJson?_toJson (m : Mode) : ofJson? m.toJson = some m := by
  cases m <;> rfl

theorem ofJson?_eq_some_iff {j : Json} {m : Mode} :
    ofJson? j = some m ↔ Spelling m.toJson j := by
  constructor
  · intro h
    obtain ⟨name, named, mode⟩ := Option.bind_eq_some_iff.1 h
    split_ifs at mode with idle editing
    · cases mode
      exact Json.name?_eq_some_iff.1 (idle ▸ named)
    · cases mode
      exact Json.name?_eq_some_iff.1 (editing ▸ named)
  · intro h
    cases m with
    | idle => rw [ofJson?, Json.name?_eq_some_iff.2 h]; rfl
    | editing => rw [ofJson?, Json.name?_eq_some_iff.2 h]; rfl

end Mode

namespace Signal

theorem ofJson?_toJson (s : Signal) : ofJson? s.toJson = some s := by
  cases s with
  | digitAccepted d =>
      show (Digit.ofJson? d.toJson).map digitAccepted = _
      rw [Digit.ofJson?_eq_some_iff.2 rfl]
      rfl
  | easterEgg => rfl

/-- **A signal is read from its spellings**, and from nothing else. -/
theorem ofJson?_eq_some_iff {j : Json} {s : Signal} :
    ofJson? j = some s ↔ Spelling s.toJson j := by
  constructor
  · intro h
    rcases Json.tagged?_cases j with ⟨name, rfl⟩ | ⟨name, content, rfl⟩ | none
    · unfold ofJson? at h
      dsimp only [Json.tagged?] at h
      split_ifs at h with tag egg
      · cases h
      · cases h
        rw [egg.1]
        exact .same _
    · unfold ofJson? at h
      dsimp only [Json.tagged?] at h
      split_ifs at h with tag egg
      · obtain ⟨d, digit, rfl⟩ := Option.map_eq_some_iff.1 h
        rw [Digit.ofJson?_eq_some_iff.1 digit, tag]
        exact .same _
      · cases h
        -- the content is null, as that of a name without content
        obtain ⟨plain, named⟩ := Option.isSome_iff_exists.1 egg.2
        cases Json.name?_eq_some_iff.1 named
        rw [egg.1]
        exact .null _
    · rw [ofJson?, none] at h
      cases h
  · intro h
    generalize written : s.toJson = w at h
    cases h with
    | same => rw [← written, ofJson?_toJson]
    | null name =>
        cases s with
        | digitAccepted d => cases written
        | easterEgg => cases written; rfl

end Signal

/-! ### Faces and outcomes -/

/-- **The spellings of a face.** -/
def Face.Spelled (j : Json) (f : Face) : Prop :=
  ∃ mode, Json.Record ["display", "editMode"] [some (.string f.display), some mode] j ∧
    Spelling f.mode.toJson mode

/-- **The spellings of an outcome**, whose signal may be missing. -/
def Outcome.Spelled (j : Json) (o : Outcome) : Prop :=
  ∃ mode signal, Json.Record ["display", "editMode", "signal"]
      [some (.string o.display), some mode, signal] j ∧
    Spelling o.mode.toJson mode ∧ Json.Optional Signal.toJson signal o.signal

theorem Face.ofJson?_eq_some_iff {j : Json} {f : Face} :
    ofJson? j = some f ↔ Spelled j f := by
  constructor
  · intro h
    unfold ofJson? at h
    split at h
    · rename_i display mode record
      obtain ⟨text, shown, h⟩ := Option.bind_eq_some_iff.1 h
      obtain ⟨m, spelled, h⟩ := Option.bind_eq_some_iff.1 h
      cases h
      rw [Json.text?_eq_some_iff.1 shown] at record
      exact ⟨mode, Json.record?_eq_some_iff.1 record, Mode.ofJson?_eq_some_iff.1 spelled⟩
    · cases h
  · rintro ⟨mode, record, spelled⟩
    rw [ofJson?, Json.record?_eq_some_iff.2 record]
    dsimp only
    rw [Json.text?, Mode.ofJson?_eq_some_iff.2 spelled]
    rfl

theorem Outcome.ofJson?_eq_some_iff {j : Json} {o : Outcome} :
    ofJson? j = some o ↔ Spelled j o := by
  have signals {content : Option Json} {signal : Option Signal} :
      Json.optional? Signal.ofJson? content = some signal ↔
        Json.Optional Signal.toJson content signal :=
    Json.optional?_eq_some_iff Signal.ofJson?_eq_some_iff rfl
  constructor
  · intro h
    unfold ofJson? at h
    split at h
    · rename_i display mode signal record
      obtain ⟨text, shown, h⟩ := Option.bind_eq_some_iff.1 h
      obtain ⟨m, spelled, h⟩ := Option.bind_eq_some_iff.1 h
      obtain ⟨s, given, h⟩ := Option.bind_eq_some_iff.1 h
      cases h
      rw [Json.text?_eq_some_iff.1 shown] at record
      exact ⟨mode, signal, Json.record?_eq_some_iff.1 record,
        Mode.ofJson?_eq_some_iff.1 spelled, signals.1 given⟩
    · cases h
  · rintro ⟨mode, signal, record, spelled, given⟩
    rw [ofJson?, Json.record?_eq_some_iff.2 record]
    dsimp only
    rw [Json.text?, Mode.ofJson?_eq_some_iff.2 spelled, signals.2 given]
    rfl

/-! ### What is written -/

namespace Json

/-- An exact value in which all numbers are digits. -/
structure Plain (v : Json) : Prop where
  exact : Exact v
  digits : ∀ n, Holds n v → 0 ≤ n ∧ n ≤ 9

namespace Plain

theorem string (s : Text) : Plain (.string s) := ⟨.string s, fun _ h => nomatch h⟩

theorem null : Plain .null := ⟨.null, fun _ h => nomatch h⟩

theorem digit (d : Digit) : Plain d.toJson := by
  have small := d.isLt
  refine ⟨.integer (by omega) (by simp only [UInt64.size]; omega), fun n h => ?_⟩
  cases h
  omega

/-- Fields with names of their own. -/
theorem object {fs : List (Text × Json)} (names : (fs.map Prod.fst).Nodup)
    (each : ∀ f ∈ fs, Plain f.2) : Plain (.object fs) := by
  refine ⟨.object names fun f hf => (each f hf).exact, fun n h => ?_⟩
  cases h with
  | field among inside => exact (each _ among).digits n inside

/-- A name with content. -/
theorem tagged {content : Json} (plain : Plain content) (name : Text) :
    Plain (.object [(name, content)]) :=
  object (List.nodup_singleton name) (List.forall_mem_singleton.2 plain)

end Plain

/-- **A type survives** if it is read from its spellings, and what is written is among them. -/
theorem Survives.of_plain {α : Type} {toJson : α → Json} {ofJson? : Json → Option α}
    {Spells : Json → α → Prop} (read_iff : ∀ {j v}, ofJson? j = some v ↔ Spells j v)
    (written : ∀ v, Spells (toJson v) v) (plain : ∀ v, (toJson v).Plain) :
    Survives toJson ofJson? Spells where
  read_iff := fun _ _ => read_iff
  reread := fun v => read_iff.2 (written v)
  retext := fun v => by
    rw [read?_compact (plain v).exact]
    exact read_iff.2 (written v)
  respelled := fun _ v _ => read_iff.2 (written v)
  digits := fun v => (plain v).digits

end Json

theorem Key.plain_toJson (k : Key) : k.toJson.Plain := by
  cases k with
  | digit d => exact (Json.Plain.digit d).tagged _
  | mark _ | equal | clear | percent | negate => exact .string _

theorem Mode.plain_toJson (m : Mode) : m.toJson.Plain := by
  cases m <;> exact .string _

theorem Signal.plain_toJson (s : Signal) : s.toJson.Plain := by
  cases s with
  | digitAccepted d => exact (Json.Plain.digit d).tagged _
  | easterEgg => exact .string _

theorem Face.plain_toJson (f : Face) : f.toJson.Plain := by
  refine .object (show ["display".toList, "editMode".toList].Nodup by decide) ?_
  simp only [jsonFields, List.forall_mem_cons, List.not_mem_nil, false_implies, implies_true,
    and_true]
  exact ⟨.string f.display, f.mode.plain_toJson⟩

theorem Outcome.plain_toJson (o : Outcome) : o.toJson.Plain := by
  have signal : ((o.signal.map Signal.toJson).getD .null).Plain := by
    cases o.signal with
    | none => exact .null
    | some s => exact s.plain_toJson
  refine .object (show ["display".toList, "editMode".toList, "signal".toList].Nodup by decide) ?_
  simp only [Face.jsonFields, List.cons_append, List.nil_append, List.forall_mem_cons,
    List.not_mem_nil, false_implies, implies_true, and_true]
  exact ⟨.string o.display, o.mode.plain_toJson, signal⟩

/-! ### What is written is a spelling -/

theorem Face.spelled_toJson (f : Face) : Spelled f.toJson f :=
  ⟨f.mode.toJson, .fields f.jsonFields, .same _⟩

theorem Outcome.spelled_toJson (o : Outcome) : Spelled o.toJson o := by
  refine ⟨o.mode.toJson, some ((o.signal.map Signal.toJson).getD .null), .fields (o.jsonFields ++
    [("signal".toList, (o.signal.map Signal.toJson).getD .null)]), .same _, ?_⟩
  cases o.signal with
  | none => exact .null
  | some s => exact .given (.same _)

/-! ### The calculator's types -/

namespace Key

/-- A digit is read from a number that has an entry in the table of labels. -/
theorem label_of_ofJson? {j : Json} {d : Digit} (read : ofJson? j = some (.digit d)) :
    ∃ n : Nat, j = .ofTagged "digit" (.integer n) ∧ n ≤ 9 ∧
      digitLabels[n]? = some (digit d).label := by
  have spelling : Spelling (.ofTagged "digit" d.toJson) j := ofJson?_eq_some_iff.1 read
  cases spelling
  exact ⟨d.val, rfl, Nat.le_of_lt_succ d.isLt, getElem?_digitLabels d⟩

/-- A number that is tagged as a digit is read as one iff it is at most nine. -/
theorem ofJson?_tagged_iff {n : Int} :
    (∃ k, ofJson? (.ofTagged "digit" (.integer n)) = some k) ↔ 0 ≤ n ∧ n ≤ 9 := by
  have tagged : ofJson? (.ofTagged "digit" (.integer n)) =
      (Digit.ofJson? (.integer n)).map digit := rfl
  rw [tagged, ← Digit.ofJson?_integer_iff]
  constructor
  · rintro ⟨k, read⟩
    obtain ⟨d, number, -⟩ := Option.map_eq_some_iff.1 read
    exact ⟨d, number⟩
  · rintro ⟨d, number⟩
    exact ⟨digit d, by rw [number]; rfl⟩

end Key

/-- **The types that a front end exchanges with the calculator survive as JSON**: signals,
outcomes, faces with any display, and keys.  Each is read from its spellings and from nothing
else, is read back from what is written for it and from the text of that, and holds no number
above nine.  A number is read as the digit of a key iff it is at most nine, and then the table of
labels has the label of that key at this number. -/
theorem Json.types_survive :
    Survives Signal.toJson Signal.ofJson? (fun j s => Spelling s.toJson j) ∧
    Survives Outcome.toJson Outcome.ofJson? Outcome.Spelled ∧
    Survives Face.toJson Face.ofJson? Face.Spelled ∧
    Survives Key.toJson Key.ofJson? (fun j k => Spelling k.toJson j) ∧
    (∀ n, (∃ k, Key.ofJson? (.ofTagged "digit" (.integer n)) = some k) ↔ 0 ≤ n ∧ n ≤ 9) ∧
    ∀ j d, Key.ofJson? j = some (.digit d) →
      ∃ n : Nat, j = .ofTagged "digit" (.integer n) ∧ n ≤ 9 ∧
        Key.digitLabels[n]? = some (Key.digit d).label :=
  ⟨.of_plain Signal.ofJson?_eq_some_iff (fun _ => .same _) Signal.plain_toJson,
    .of_plain Outcome.ofJson?_eq_some_iff Outcome.spelled_toJson Outcome.plain_toJson,
    .of_plain Face.ofJson?_eq_some_iff Face.spelled_toJson Face.plain_toJson,
    .of_plain Key.ofJson?_eq_some_iff (fun _ => .same _) Key.plain_toJson,
    fun _ => Key.ofJson?_tagged_iff, fun _ _ => Key.label_of_ofJson?⟩

/-- Fields in another order, one that nothing reads, a mode with null, and no signal. -/
example : Outcome.ofJson? (.object [("clearLabel".toList, .bool true),
    ("editMode".toList, .object [("idle".toList, .null)]), ("display".toList, .string ['0'])]) =
      some ⟨⟨['0'], .idle⟩, none⟩ := rfl

end HeartKeypad
