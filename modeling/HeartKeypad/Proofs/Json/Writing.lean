import HeartKeypad.Json.Reader
import HeartKeypad.Proofs.Expression.Reread

/-!
# JSON that is written and read back

`Json.compact` writes a value without blanks, and `Json.read?` reads the same value from what is
written, as long as the value is exact: its integers fit a 64-bit word and no object names a
field twice.  Doubles are left out; they are read through a shortened significand, so that what
is read need not be what was written.

* `Json.Exact` — the values that are read back.
* `Json.Closes` — what may stand behind a value.
* `Json.ReadBack` — a value is read back in front of such a text.
* `Json.read?_compact` — an exact value is read back from its own text.

### Fuel

A value needs no more fuel than it has characters: each level of nesting has a bracket of its
own, and each value of an array has the comma or the bracket behind it.
-/

namespace HeartKeypad

namespace Json

open Numeral (isDigit)

/-- **Values that writing keeps**: no doubles, integers that fit a 64-bit word, and fields with
names of their own. -/
inductive Exact : Json → Prop
  | null : Exact .null
  | bool (b : Bool) : Exact (.bool b)
  | integer {n : Int} : -9223372036854775808 ≤ n → n < UInt64.size → Exact (.integer n)
  | string (s : Text) : Exact (.string s)
  | array {vs : List Json} : (∀ v ∈ vs, Exact v) → Exact (.array vs)
  | object {fs : List (Text × Json)} : (fs.map Prod.fst).Nodup → (∀ f ∈ fs, Exact f.2) →
      Exact (.object fs)

/-- What may stand behind a value: nothing, a comma or a closing bracket. -/
def Closes : Text → Prop
  | [] => True
  | c :: _ => c = ',' ∨ c = ']' ∨ c = '}'

theorem closes_comma (r : Text) : Closes (',' :: r) := Or.inl rfl

theorem closes_bracket (r : Text) : Closes (']' :: r) := Or.inr (Or.inl rfl)

theorem closes_brace (r : Text) : Closes ('}' :: r) := Or.inr (Or.inr rfl)

theorem skipSpace_cons {c : Char} (h : isSpace c = false) (r : Text) :
    skipSpace (c :: r) = c :: r := by
  simp [skipSpace, h]

/-! ### What is written -/

theorem compact_integer (n : Int) : compact (.integer n) = integerText n := rfl

theorem compact_string (s : Text) : compact (.string s) = quote s := rfl

theorem compact_array (vs : List Json) :
    compact (.array vs) = '[' :: joined [','] (compactValues vs) ++ [']'] := rfl

theorem compact_object (fs : List (Text × Json)) :
    compact (.object fs) = '{' :: joined [','] (compactFields fs) ++ ['}'] := rfl

theorem compactValues_nil : compactValues [] = [] := rfl

theorem compactValues_cons (v : Json) (vs : List Json) :
    compactValues (v :: vs) = v.compact :: compactValues vs := rfl

theorem compactFields_nil : compactFields [] = [] := rfl

theorem compactFields_cons (name : Text) (v : Json) (fs : List (Text × Json)) :
    compactFields ((name, v) :: fs) = (quote name ++ ':' :: v.compact) :: compactFields fs := rfl

theorem joined_singleton (t : Text) : joined [','] [t] = t := rfl

theorem joined_cons_cons (t u : Text) (ts : List Text) :
    joined [','] (t :: u :: ts) = t ++ ',' :: joined [','] (u :: ts) :=
  List.append_assoc t [','] _

/-- The first text stands in front. -/
theorem exists_joined_cons (t : Text) (ts : List Text) : ∃ u, joined [','] (t :: ts) = t ++ u := by
  cases ts with
  | nil => exact ⟨[], (List.append_nil t).symm⟩
  | cons u ts => exact ⟨_, joined_cons_cons t u ts⟩

/-! ### Fuel -/

/-- With fuel for more than a text, there is a unit of it. -/
theorem exists_fuel {n fuel : Nat} (enough : n < fuel) : ∃ fuel', fuel = fuel' + 1 :=
  Nat.exists_eq_succ_of_ne_zero (Nat.ne_of_gt (Nat.zero_lt_of_lt enough))

/-! ### Quoted texts -/

/-- Four hexadecimal digits in front of a text. -/
theorem fourHex?_append (a b c d : Char) (r : Text) :
    fourHex? (a :: b :: c :: d :: r) = (Hex.nat? [a, b, c, d]).map fun n => (n, r) := by
  simp [fourHex?]

/-- A character below U+0020 is read from its number. -/
theorem unicodeEscape?_small {n : Nat} (small : n < 32) (r : Text) :
    unicodeEscape? ('0' :: '0' :: Hex.digit (n / 16) :: Hex.digit (n % 16) :: r) =
      some (Char.ofNat n, r) := by
  have digits : ∀ n : Fin 32,
      Hex.nat? ['0', '0', Hex.digit (n / 16), Hex.digit (n % 16)] = some n.val := by decide
  have read := digits ⟨n, small⟩
  dsimp only at read
  rw [unicodeEscape?, fourHex?_append, read]
  have low : ¬ (0xD800 ≤ n ∧ n < 0xDC00) := by omega
  have high : ¬ (0xDC00 ≤ n ∧ n < 0xE000) := by omega
  simp [low, high]

/-- A character in front of what is read. -/
def before (c : Char) (p : Text × Text) : Text × Text := (c :: p.1, p.2)

/-- A letter escape. -/
theorem readQuoted?_letter {l c : Char} (escaped : letterEscape? l = some c) (fuel : Nat)
    (r : Text) : readQuoted? (fuel + 1) ('\\' :: l :: r) = (readQuoted? fuel r).map (before c) := by
  rw [readQuoted?, escaped]
  · cases readQuoted? fuel r <;> simp [before]
  · -- `u` is no letter escape
    rintro rfl
    cases escaped

/-- A character that stands for itself. -/
theorem readQuoted?_plain {c : Char} (quote : c ≠ '"') (backslash : c ≠ '\\')
    (large : ¬ c.toNat < 32) (fuel : Nat) (r : Text) :
    readQuoted? (fuel + 1) (c :: r) = (readQuoted? fuel r).map (before c) := by
  rw [readQuoted?]
  · simp only [large, backslash, decide_false, Bool.false_or, beq_iff_eq, if_false]
    rfl
  · exact fun same => quote same
  · exact fun _ same => absurd same backslash
  · exact fun _ _ same => absurd same backslash

/-- **A character in quotes** is read back. -/
theorem readQuoted?_escape (c : Char) (fuel : Nat) (r : Text) :
    readQuoted? (fuel + 1) (escape c ++ r) = (readQuoted? fuel r).map (before c) := by
  have self : Char.ofNat c.toNat = c := Char.ofNat_toNat c
  unfold escape
  split
  · exact readQuoted?_letter rfl fuel r
  · exact readQuoted?_letter rfl fuel r
  · exact readQuoted?_letter rfl fuel r
  · exact readQuoted?_letter rfl fuel r
  · exact readQuoted?_letter rfl fuel r
  · rename_i quote backslash _ _ _
    split
    · rename_i eight
      rw [eight] at self
      exact readQuoted?_letter (l := 'b') (congrArg some self) fuel r
    split
    · rename_i twelve
      rw [twelve] at self
      exact readQuoted?_letter (l := 'f') (congrArg some self) fuel r
    split
    · rename_i small
      have read := unicodeEscape?_small small r
      rw [self] at read
      show (unicodeEscape? (_ :: _ :: _ :: _ :: r)).bind _ = _
      rw [read]
      show (readQuoted? fuel r).bind _ = _
      cases readQuoted? fuel r <;> rfl
    · rename_i large
      exact readQuoted?_plain quote backslash large fuel r

/-- A text in quotes is read back. -/
theorem readQuoted?_quote (s r : Text) {fuel : Nat} (enough : s.length < fuel) :
    readQuoted? fuel (s.flatMap escape ++ '"' :: r) = some (s, r) := by
  induction s generalizing fuel with
  | nil =>
      obtain ⟨fuel, rfl⟩ := exists_fuel enough
      rfl
  | cons c s ih =>
      obtain ⟨fuel, rfl⟩ := exists_fuel enough
      rw [List.flatMap_cons, List.append_assoc, readQuoted?_escape,
        ih (Nat.lt_of_succ_lt_succ enough)]
      rfl

/-- The escapes of a text are no shorter than the text. -/
theorem length_le_flatMap_escape (s : Text) : s.length ≤ (s.flatMap escape).length := by
  induction s with
  | nil => exact Nat.le_refl 0
  | cons c s ih =>
      have one : 1 ≤ (escape c).length := by
        unfold escape
        split <;> try split_ifs
        all_goals simp
      rw [List.flatMap_cons, List.length_append, List.length_cons]
      omega

/-- With as much fuel as the reader gives to a quoted text, it is read back. -/
theorem readQuoted?_behind_quote (s r : Text) :
    readQuoted? ((s.flatMap escape ++ '"' :: r).length + 1) (s.flatMap escape ++ '"' :: r) =
      some (s, r) := by
  refine readQuoted?_quote s r ?_
  have short := length_le_flatMap_escape s
  rw [List.length_append]
  omega

/-! ### Integers -/

/-- A significand has room for a number that fits a word. -/
theorem significand_of_lt {ds : Text} {m : Nat} (small : Numeral.natFrom m ds < UInt64.size) :
    significand m ds = (Numeral.natFrom m ds, []) := by
  induction ds generalizing m with
  | nil => rfl
  | cons c ds ih =>
      rw [Numeral.natFrom_cons] at small ⊢
      have room : 10 * m + Numeral.digitValue c < UInt64.size := by
        refine Nat.lt_of_le_of_lt ?_ small
        rw [Numeral.natFrom_eq]
        exact Nat.le_add_right_of_le (Nat.le_mul_of_pos_right _ (Nat.pow_pos (by decide)))
      rw [significand]
      simp only [if_pos room]
      exact ih small

/-- Digits in front of what closes a value are read as far as they go. -/
theorem run?_of_closes {ds r : Text} (digits : Numeral.Digits ds) (nonempty : ds ≠ [])
    (closes : Closes r) : Numeral.run? (ds ++ r) = some (ds, r) := by
  have stops : r.takeWhile isDigit = [] := by
    cases r with
    | nil => rfl
    | cons c r =>
        have none : isDigit c = false := by
          rcases closes with rfl | rfl | rfl
          all_goals decide
        exact List.takeWhile_cons_of_neg (by simp [none])
  have whole : (ds ++ r).takeWhile isDigit = ds := by
    rw [List.takeWhile_append_of_pos digits, stops, List.append_nil]
  rw [Numeral.run?]
  simp only [whole, List.isEmpty_eq_false_iff.2 nonempty, Bool.false_eq_true, if_false,
    List.drop_left]

/-- **The digits of a number** are read as that number. -/
theorem readNumber?_digits (minus : Bool) (n : Nat) {r : Text} (closes : Closes r) :
    readNumber? minus (Written.digits n ++ r) =
      (number? minus (Written.digits n) [] none).map fun v => (v, r) := by
  have natural := Written.isNatural_digits n
  have nonempty : Written.digits n ≠ [] := by
    intro none
    rw [none] at natural
    cases natural
  have plain : (decide ((Written.digits n).length > 1) &&
      (Written.digits n).head? == some '0') = false := by
    generalize Written.digits n = ds at natural
    cases natural with
    | zero => rfl
    | positive _ nonzero _ => simp [nonzero]
  have fraction : fraction? r = some ([], r) := by
    cases r with
    | nil => rfl
    | cons c r => rcases closes with rfl | rfl | rfl <;> rfl
  have exponent : exponent? r = some (none, r) := by
    cases r with
    | nil => rfl
    | cons c r => rcases closes with rfl | rfl | rfl <;> rfl
  rw [readNumber?, run?_of_closes natural.digits nonempty closes]
  simp only [Option.bind_eq_bind, Option.bind_some, plain, Bool.false_eq_true, if_false, fraction,
    exponent]
  cases number? minus (Written.digits n) [] none <;> rfl

/-- Digits alone are a natural number if it fits a word. -/
theorem number?_digits {n : Nat} (small : n < UInt64.size) :
    number? false (Written.digits n) [] none = some (.integer n) := by
  have read : Numeral.natFrom 0 (Written.digits n) = n := Written.nat_digits n
  rw [number?, significand_of_lt (by rwa [read]), read]
  rfl

/-- Behind a minus they are a negative one if it fits a signed word. -/
theorem number?_minus_digits {n : Nat} (pos : 0 < n) (small : n ≤ 9223372036854775808) :
    number? true (Written.digits n) [] none = some (.integer (-n)) := by
  have read : Numeral.natFrom 0 (Written.digits n) = n := Written.nat_digits n
  have room : n < UInt64.size := Nat.lt_of_le_of_lt small (by decide)
  rw [number?, significand_of_lt (by rwa [read]), read]
  simp [pos, small]

/-! ### Values -/

/-- **The value is read back** from its text in front of whatever may stand behind it. -/
def ReadBack (v : Json) : Prop := ∀ fuel rest, v.compact.length < fuel → Closes rest →
  readValue? fuel (v.compact ++ rest) = some (v, rest)

theorem isSpace_of_isDigit {c : Char} (digit : isDigit c = true) : isSpace c = false := by
  refine Bool.eq_false_iff.2 fun space => ?_
  simp only [isSpace, Bool.or_eq_true, beq_iff_eq] at space
  rcases space with ((rfl | rfl) | rfl) | rfl
  all_goals cases digit

/-- A digit starts nothing but a number. -/
theorem readValue?_of_isDigit {c : Char} (digit : isDigit c = true) (fuel : Nat) (r : Text) :
    readValue? (fuel + 1) (c :: r) = readNumber? false (c :: r) := by
  rw [readValue?, skipSpace_cons (isSpace_of_isDigit digit)]
  split <;> simp_all [isDigit]

theorem readValue?_digits (n fuel : Nat) (r : Text) :
    readValue? (fuel + 1) (Written.digits n ++ r) =
      readNumber? false (Written.digits n ++ r) := by
  have natural := Written.isNatural_digits n
  generalize Written.digits n = ds at natural
  cases natural with
  | zero => exact readValue?_of_isDigit (by decide) fuel _
  | positive digit _ _ => exact readValue?_of_isDigit digit fuel _

theorem readValue?_minus (fuel : Nat) (r : Text) :
    readValue? (fuel + 1) ('-' :: r) = readNumber? true r := rfl

theorem readValue?_quote (fuel : Nat) (s r : Text) :
    readValue? (fuel + 1) (quote s ++ r) = some (.string s, r) := by
  have text : quote s ++ r = '"' :: (s.flatMap escape ++ '"' :: r) := by simp [quote]
  rw [text]
  show (readQuoted? _ _).map _ = _
  rw [readQuoted?_behind_quote]
  rfl

theorem readValue?_bracket (fuel : Nat) (r : Text) :
    readValue? (fuel + 1) ('[' :: r) = match skipSpace r with
      | ']' :: r => some (.array [], r)
      | r => (readValues? fuel r).map fun (vs, r) => (.array vs, r) := rfl

theorem readValue?_brace (fuel : Nat) (r : Text) :
    readValue? (fuel + 1) ('{' :: r) = match skipSpace r with
      | '}' :: r => some (.object [], r)
      | r => (readFields? fuel [] r).map fun (fs, r) => (.object fs, r) := rfl

theorem compact_of_neg {n : Int} (negative : n < 0) :
    compact (.integer n) = '-' :: Written.digits n.natAbs := by
  simp [compact_integer, integerText, Written.sign, negative]

theorem compact_of_nonneg {n : Int} (nonnegative : 0 ≤ n) :
    compact (.integer n) = Written.digits n.natAbs := by
  simp [compact_integer, integerText, Written.sign, not_lt.2 nonnegative]

theorem readBack_integer {n : Int} (low : -9223372036854775808 ≤ n) (high : n < UInt64.size) :
    ReadBack (.integer n) := by
  intro fuel rest enough closes
  obtain ⟨fuel, rfl⟩ := exists_fuel enough
  rcases lt_or_ge n 0 with negative | nonnegative
  · have back : -(n.natAbs : Int) = n := by omega
    rw [compact_of_neg negative, List.cons_append, readValue?_minus,
      readNumber?_digits true _ closes, number?_minus_digits (by omega) (by omega), back]
    rfl
  · have room : n.natAbs < UInt64.size := by
      have bound : (n.natAbs : Int) = n := Int.natAbs_of_nonneg nonnegative
      omega
    rw [compact_of_nonneg nonnegative, readValue?_digits, readNumber?_digits false _ closes,
      number?_digits room, Int.natAbs_of_nonneg nonnegative]
    rfl

theorem readBack_string (s : Text) : ReadBack (.string s) := by
  intro fuel rest enough _
  obtain ⟨fuel, rfl⟩ := exists_fuel enough
  rw [compact_string, readValue?_quote]

/-- The first value of an array and those behind it. -/
theorem readValues?_compact {vs : List Json} (each : ∀ v ∈ vs, ReadBack v) (nonempty : vs ≠ [])
    (fuel : Nat) (enough : (joined [','] (compactValues vs)).length + 1 < fuel) (rest : Text) :
    readValues? fuel (joined [','] (compactValues vs) ++ ']' :: rest) = some (vs, rest) := by
  induction vs generalizing fuel with
  | nil => exact absurd rfl nonempty
  | cons v vs ih =>
      obtain ⟨fuel, rfl⟩ := exists_fuel enough
      obtain ⟨first, others⟩ := List.forall_mem_cons.1 each
      cases vs with
      | nil =>
          rw [compactValues_cons, compactValues_nil, joined_singleton] at enough ⊢
          show (readValue? _ _).bind _ = _
          rw [first fuel _ (by omega) (closes_bracket rest)]
          rfl
      | cons w vs =>
          rw [compactValues_cons, compactValues_cons, joined_cons_cons] at enough ⊢
          rw [List.length_append, List.length_cons] at enough
          rw [List.append_assoc, List.cons_append]
          show (readValue? _ _).bind _ = _
          rw [first fuel _ (by omega) (closes_comma _)]
          have more := ih others (List.cons_ne_nil _ _) fuel (by
            rw [compactValues_cons]
            omega)
          rw [compactValues_cons] at more
          show (readValues? _ _).map _ = _
          rw [more]
          rfl

/-- A name that is not there yet is set at the end. -/
theorem setField_of_not_mem {name : Text} {fs : List (Text × Json)}
    (fresh : name ∉ fs.map Prod.fst) (v : Json) : setField name v fs = fs ++ [(name, v)] := by
  induction fs with
  | nil => rfl
  | cons f fs ih =>
      obtain ⟨other, rest⟩ := not_or.1 (fun among => fresh (List.mem_cons.2 among))
      have differs : (f.1 == name) = false := beq_eq_false_iff_ne.2 (Ne.symm other)
      rw [setField, differs, if_neg Bool.false_ne_true, ih rest]
      rfl

/-- What is read behind a field: more of them, or the end of the object. -/
def furtherFields? (fuel : Nat) (read : List (Text × Json)) (r : Text) :
    Option (List (Text × Json) × Text) :=
  match skipSpace r with
  | ',' :: r => readFields? fuel read r
  | '}' :: r => some (read, r)
  | _ => none

/-- A field, and what stands behind it. -/
theorem readFields?_field {v : Json} (value : ReadBack v) {name : Text}
    {read : List (Text × Json)} (fresh : name ∉ read.map Prod.fst) {fuel : Nat}
    (enough : v.compact.length < fuel) {r : Text} (closes : Closes r) :
    readFields? (fuel + 1) read ((quote name ++ ':' :: v.compact) ++ r) =
      furtherFields? fuel (read ++ [(name, v)]) r := by
  have text : (quote name ++ ':' :: v.compact) ++ r =
      '"' :: (name.flatMap escape ++ '"' :: ':' :: (v.compact ++ r)) := by
    simp [quote]
  rw [text]
  show (readQuoted? _ _).bind _ = _
  rw [readQuoted?_behind_quote]
  simp only [Option.bind_eq_bind, Option.bind_some, skipSpace_cons (c := ':') (by decide),
    value fuel r enough closes, setField_of_not_mem fresh]
  rfl

/-- **The fields of an object**, behind those that have been read. -/
theorem readFields?_compact {fs : List (Text × Json)} (each : ∀ f ∈ fs, ReadBack f.2)
    (nonempty : fs ≠ []) (read : List (Text × Json)) (names : ((read ++ fs).map Prod.fst).Nodup)
    (fuel : Nat) (enough : (joined [','] (compactFields fs)).length + 1 < fuel)
    (rest : Text) :
    readFields? fuel read (joined [','] (compactFields fs) ++ '}' :: rest) =
      some (read ++ fs, rest) := by
  induction fs generalizing fuel read with
  | nil => exact absurd rfl nonempty
  | cons f fs ih =>
      obtain ⟨name, v⟩ := f
      obtain ⟨fuel, rfl⟩ := exists_fuel enough
      obtain ⟨first, others⟩ : ReadBack v ∧ ∀ f ∈ fs, ReadBack f.2 := List.forall_mem_cons.1 each
      have fresh : name ∉ read.map Prod.fst := by
        rw [List.map_append, List.map_cons, List.nodup_append] at names
        exact fun among => names.2.2 name among name List.mem_cons_self rfl
      cases fs with
      | nil =>
          rw [compactFields_cons, compactFields_nil, joined_singleton] at enough ⊢
          rw [List.length_append, List.length_cons] at enough
          rw [readFields?_field first fresh (by omega) (closes_brace rest), furtherFields?,
            skipSpace_cons (by decide)]
          rfl
      | cons g fs =>
          obtain ⟨other, w⟩ := g
          rw [compactFields_cons, compactFields_cons, joined_cons_cons] at enough ⊢
          rw [List.length_append, List.length_append, List.length_cons, List.length_cons] at enough
          have more := ih others (List.cons_ne_nil _ _) (read ++ [(name, v)])
            (by rwa [List.append_assoc]) fuel (by
              rw [compactFields_cons]
              omega)
          rw [compactFields_cons, List.append_assoc] at more
          rw [List.append_assoc, List.cons_append,
            readFields?_field first fresh (by omega) (closes_comma _), furtherFields?,
            skipSpace_cons (by decide)]
          exact more

/-! ### What stands in front -/

/-- An exact value starts with a character that is no blank and closes nothing. -/
theorem Exact.starts {v : Json} (h : Exact v) :
    ∃ c r, v.compact = c :: r ∧ isSpace c = false ∧ c ≠ ']' := by
  cases h with
  | null => exact ⟨'n', _, rfl, by decide, by decide⟩
  | bool b => cases b <;> exact ⟨_, _, rfl, by decide, by decide⟩
  | @integer n low high =>
      rcases lt_or_ge n 0 with negative | nonnegative
      · exact ⟨'-', _, compact_of_neg negative, by decide, by decide⟩
      · rw [compact_of_nonneg nonnegative]
        have natural := Written.isNatural_digits n.natAbs
        generalize Written.digits n.natAbs = ds at natural
        cases natural with
        | zero => exact ⟨'0', _, rfl, by decide, by decide⟩
        | @positive c ds digit _ _ =>
            refine ⟨c, _, rfl, isSpace_of_isDigit digit, ?_⟩
            rintro rfl
            cases digit
  | string s => exact ⟨'"', _, rfl, by decide, by decide⟩
  | array _ => exact ⟨'[', _, rfl, by decide, by decide⟩
  | object _ _ => exact ⟨'{', _, rfl, by decide, by decide⟩

/-! ### Any value -/

theorem readBack_array {vs : List Json} (exact : ∀ v ∈ vs, Exact v) (each : ∀ v ∈ vs, ReadBack v) :
    ReadBack (.array vs) := by
  intro fuel rest enough _
  obtain ⟨fuel, rfl⟩ := exists_fuel enough
  have text : compact (.array vs) ++ rest =
      '[' :: (joined [','] (compactValues vs) ++ ']' :: rest) := by simp [compact_array]
  rw [text, readValue?_bracket]
  cases vs with
  | nil => rfl
  | cons v vs =>
      obtain ⟨c, r, first, visible, opens⟩ := (exact v List.mem_cons_self).starts
      obtain ⟨u, front⟩ := exists_joined_cons v.compact (compactValues vs)
      have all := readValues?_compact each (List.cons_ne_nil v vs) fuel (by
        simp only [compact_array, List.length_append, List.length_cons, List.length_nil] at enough
        omega) rest
      rw [compactValues_cons, front, first] at all ⊢
      rw [List.cons_append, List.cons_append] at all ⊢
      rw [skipSpace_cons visible]
      split
      · rename_i same
        exact absurd (List.cons.inj same).1 opens
      · rw [all]
        rfl

theorem readBack_object {fs : List (Text × Json)} (names : (fs.map Prod.fst).Nodup)
    (each : ∀ f ∈ fs, ReadBack f.2) : ReadBack (.object fs) := by
  intro fuel rest enough _
  obtain ⟨fuel, rfl⟩ := exists_fuel enough
  have text : compact (.object fs) ++ rest =
      '{' :: (joined [','] (compactFields fs) ++ '}' :: rest) := by simp [compact_object]
  rw [text, readValue?_brace]
  cases fs with
  | nil => rfl
  | cons f fs =>
      obtain ⟨name, v⟩ := f
      obtain ⟨u, front⟩ := exists_joined_cons (quote name ++ ':' :: v.compact) (compactFields fs)
      have all := readFields?_compact each (List.cons_ne_nil (name, v) fs) [] names fuel (by
        simp only [compact_object, List.length_append, List.length_cons, List.length_nil] at enough
        omega) rest
      rw [compactFields_cons, front, quote] at all ⊢
      rw [List.cons_append, List.cons_append, List.cons_append, List.cons_append] at all ⊢
      rw [skipSpace_cons (by decide)]
      show (readFields? _ _ _).map _ = _
      rw [all]
      rfl

/-- **An exact value is read back** in front of whatever may stand behind it. -/
theorem Exact.readBack {v : Json} (h : Exact v) : ReadBack v := by
  induction h with
  | null =>
      intro fuel rest enough _
      obtain ⟨fuel, rfl⟩ := exists_fuel enough
      rfl
  | bool b =>
      intro fuel rest enough _
      obtain ⟨fuel, rfl⟩ := exists_fuel enough
      cases b <;> rfl
  | integer low high => exact readBack_integer low high
  | string s => exact readBack_string s
  | array exact each => exact readBack_array exact each
  | object names _ each => exact readBack_object names each

/-- **An exact value is read back from its own text.** -/
theorem read?_compact {v : Json} (h : Exact v) : read? v.compact = some v := by
  have whole := h.readBack (v.compact.length + 1) [] (Nat.lt_succ_self _) trivial
  rw [List.append_nil] at whole
  rw [read?, whole]
  rfl

end Json

end HeartKeypad
