import HeartKeypad.Number.Read
import Mathlib.Data.List.TakeWhile

/-!
# Decimal literals

A literal is a run of digits, with or without a point and digits behind it, or a point
and digits.  `Numeral.Literal` says so rule by rule, together with the double that a
literal denotes, and `Numeral.read?_eq_some_iff` is the statement that reading accepts
exactly these: a digit somewhere and no second point is all that the rules ask.
-/

namespace HeartKeypad

namespace Numeral

/-- The text holds nothing but digits. -/
def Digits (s : Text) : Prop := ∀ c ∈ s, isDigit c = true

/-- The text holds nothing but digits and points. -/
def Numerals (s : Text) : Prop := ∀ c ∈ s, isNumeral c = true

/-- **The literals**, with the doubles they denote: digits, with or without a point
and digits behind it, or a point and digits. -/
inductive Literal : Text → Float → Prop
  | whole {ds : Text} : ds ≠ [] → Digits ds → Literal ds (ofParts ds [])
  | pointed {ds fs : Text} : ds ≠ [] → Digits ds → Digits fs →
      Literal (ds ++ '.' :: fs) (ofParts ds fs)
  | bare {fs : Text} : fs ≠ [] → Digits fs → Literal ('.' :: fs) (ofParts [] fs)

theorem isDigit_point : isDigit '.' = false := by decide

theorem isNumeral_point : isNumeral '.' = true := by decide

theorem isNumeral_of_isDigit {c : Char} (h : isDigit c = true) : isNumeral c = true := by
  simp [isNumeral, h]

/-- A numeral character that is no digit is the point. -/
theorem eq_point_of_isNumeral {c : Char} (h : isNumeral c = true)
    (hd : isDigit c = false) : c = '.' := by
  simpa [isNumeral, hd] using h

theorem Digits.takeWhile {ds : Text} (h : Digits ds) (r : Text) :
    (ds ++ '.' :: r).takeWhile isDigit = ds := by
  rw [List.takeWhile_append_of_pos h, List.takeWhile_cons_of_neg (by simp [isDigit_point]),
    List.append_nil]

theorem Digits.dropWhile {ds : Text} (h : Digits ds) (r : Text) :
    (ds ++ '.' :: r).dropWhile isDigit = '.' :: r := by
  rw [List.dropWhile_append_of_pos h, List.dropWhile_cons_of_neg (by simp [isDigit_point])]

theorem Digits.count_point {ds : Text} (h : Digits ds) : ds.count '.' = 0 := by
  refine List.count_eq_zero.2 fun hp => ?_
  have := h _ hp
  rw [isDigit_point] at this
  cases this

/-- Digits with a single point among them form a literal as soon as there is one
digit on either side. -/
theorem read?_pointed {ds fs : Text} (hds : Digits ds) (hfs : Digits fs)
    (hne : ds ≠ [] ∨ fs ≠ []) :
    read? (ds ++ '.' :: fs) = some (ofParts ds fs) := by
  have numeral : (ds ++ '.' :: fs).all isNumeral = true := by
    simp only [List.all_append, List.all_cons, Bool.and_eq_true, List.all_eq_true]
    exact ⟨fun c hc => isNumeral_of_isDigit (hds c hc), isNumeral_point,
      fun c hc => isNumeral_of_isDigit (hfs c hc)⟩
  have digit : (ds ++ '.' :: fs).any isDigit = true := by
    rw [List.any_eq_true]
    rcases hne with hne | hne
    · obtain ⟨c, hc⟩ := List.exists_mem_of_ne_nil ds hne
      exact ⟨c, by simp [hc], hds c hc⟩
    · obtain ⟨c, hc⟩ := List.exists_mem_of_ne_nil fs hne
      exact ⟨c, by simp [hc], hfs c hc⟩
  have point : (ds ++ '.' :: fs).count '.' = 1 := by
    rw [List.count_append, List.count_cons_self, hds.count_point, hfs.count_point]
  have split : value (ds ++ '.' :: fs) = ofParts ds fs := by
    rw [value, hds.takeWhile, hds.dropWhile, List.drop_one, List.tail_cons]
  rw [read?, numeral, wellFormed, digit, point, split]
  rfl

theorem read?_whole {ds : Text} (hne : ds ≠ []) (hds : Digits ds) :
    read? ds = some (ofParts ds []) := by
  have numeral : ds.all isNumeral = true :=
    List.all_eq_true.2 fun c hc => isNumeral_of_isDigit (hds c hc)
  have digit : ds.any isDigit = true := by
    obtain ⟨c, hc⟩ := List.exists_mem_of_ne_nil ds hne
    exact List.any_eq_true.2 ⟨c, hc, hds c hc⟩
  have split : value ds = ofParts ds [] := by
    rw [value, List.takeWhile_eq_self_iff.2 hds, List.dropWhile_eq_nil_iff.2 hds,
      List.drop_nil]
  rw [read?, numeral, wellFormed, digit, hds.count_point, split]
  rfl

/-- What stands behind the leading digits of a run is nothing, or starts at a point. -/
theorem dropWhile_isDigit_of_numeral {s : Text} (h : ∀ c ∈ s, isNumeral c = true) :
    s.dropWhile isDigit = [] ∨ ∃ fs, s.dropWhile isDigit = '.' :: fs := by
  cases hr : s.dropWhile isDigit with
  | nil => exact Or.inl rfl
  | cons c fs =>
      have stop : isDigit c = false := by
        have := List.head?_dropWhile_not isDigit s
        rw [hr] at this
        simpa using this
      have mem : c ∈ s := (List.dropWhile_suffix isDigit).mem (by rw [hr]; simp)
      exact Or.inr ⟨fs, by rw [eq_point_of_isNumeral (h c mem) stop]⟩

/-- Behind a single point there are digits only. -/
theorem digits_of_count_point {ds fs : Text}
    (h : ∀ c ∈ ds ++ '.' :: fs, isNumeral c = true)
    (points : (ds ++ '.' :: fs).count '.' ≤ 1) : Digits fs := by
  intro c hc
  cases hd : isDigit c with
  | true => rfl
  | false =>
      obtain rfl := eq_point_of_isNumeral (h c (by simp [hc])) hd
      have := List.count_pos_iff.2 hc
      rw [List.count_append, List.count_cons_self] at points
      omega

/-- A run of digits and points with a digit and at most one point is a literal. -/
theorem literal_value {s : Text} (h : ∀ c ∈ s, isNumeral c = true)
    (digit : ∃ c ∈ s, isDigit c = true) (points : s.count '.' ≤ 1) :
    Literal s (value s) := by
  have front : Digits (s.takeWhile isDigit) := fun c hc => List.mem_takeWhile_imp hc
  have cut := List.takeWhile_append_dropWhile (p := isDigit) (l := s)
  obtain ⟨d, hd, digit⟩ := digit
  rw [value]
  rcases dropWhile_isDigit_of_numeral h with hr | ⟨fs, hr⟩
  · -- no point at all
    rw [hr, List.append_nil] at cut
    rw [cut] at front ⊢
    rw [hr]
    exact .whole (List.ne_nil_of_mem hd) front
  · -- a point, with digits on one side of it at least
    rw [hr] at cut
    have back : Digits fs := digits_of_count_point (by rwa [cut]) (by rwa [cut])
    rw [hr, List.drop_one, List.tail_cons]
    generalize s.takeWhile isDigit = ds at *
    subst cut
    by_cases hds : ds = []
    · subst hds
      refine .bare ?_ back
      rintro rfl
      rw [List.mem_singleton.1 hd, isDigit_point] at digit
      cases digit
    · exact .pointed hds front back

/-- **Reading succeeds on the literals**, with the double they denote, and on nothing
else. -/
theorem read?_eq_some_iff {s : Text} {x : Float} : read? s = some x ↔ Literal s x := by
  constructor
  · intro h
    unfold read? at h
    split at h
    · rename_i ok
      cases h
      rw [Bool.and_eq_true, wellFormed, Bool.and_eq_true, decide_eq_true_eq,
        List.all_eq_true, List.any_eq_true] at ok
      exact literal_value ok.1 ok.2.1 ok.2.2
    · cases h
  · intro h
    cases h with
    | whole hne hds => exact read?_whole hne hds
    | pointed hne hds hfs => exact read?_pointed hds hfs (Or.inl hne)
    | bare hne hfs =>
        have none : Digits [] := by simp [Digits]
        exact read?_pointed none hfs (Or.inr hne)

theorem Literal.numeral {s : Text} {x : Float} (h : Literal s x) : Numerals s := by
  have := read?_eq_some_iff.2 h
  unfold read? at this
  split at this
  · rename_i ok
    exact List.all_eq_true.1 (Bool.and_eq_true_iff.1 ok).1
  · cases this

theorem Literal.ne_nil {s : Text} {x : Float} (h : Literal s x) : s ≠ [] := by
  cases h <;> simp_all

end Numeral

end HeartKeypad
