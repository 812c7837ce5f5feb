import HeartKeypad.Time.Instant

/-!
# The agenda of a show

An agenda is a queue of timers in the order in which they will fire: by the
instant they are due, and by number where they are due together.  The order is
part of the type.

* `Agenda.insert` puts a timer into its place.
* `Agenda.due` lists the timers that have come due, `Agenda.after` keeps the rest.

What an agenda is, apart from its order, is its list of timers; the lemmas say what
each operation does to that list.
-/

namespace HeartKeypad

/-- What a timer does to its heart. -/
inductive Effect where
  | rise
  | expire
deriving DecidableEq, Repr

/-- A timer for a heart, with the number under which it was queued. -/
structure Timer where
  due : Int
  seq : Nat
  heart : Nat
  effect : Effect
deriving DecidableEq

namespace Timer

/-- A timer fires no later than another. -/
def NotAfter (a b : Timer) : Prop := a.due < b.due ∨ a.due = b.due ∧ a.seq ≤ b.seq

instance (a b : Timer) : Decidable (NotAfter a b) :=
  inferInstanceAs (Decidable (_ ∨ _))

theorem NotAfter.total (a b : Timer) : NotAfter a b ∨ NotAfter b a := by
  unfold NotAfter; omega

theorem NotAfter.trans {a b c : Timer} (h : NotAfter a b) (h' : NotAfter b c) :
    NotAfter a c := by
  unfold NotAfter at *; omega

theorem NotAfter.due_le {a b : Timer} (h : NotAfter a b) : a.due ≤ b.due := by
  unfold NotAfter at h; omega

end Timer

/-- Timers in the order in which they fire. -/
structure Agenda where
  timers : List Timer
  sorted : timers.Pairwise Timer.NotAfter

namespace Agenda

/-- The agenda without timers. -/
def empty : Agenda := ⟨[], List.Pairwise.nil⟩

/-- Puts a timer behind all those that fire no later. -/
def place (t : Timer) : List Timer → List Timer
  | [] => [t]
  | u :: us => if Timer.NotAfter u t then u :: place t us else t :: u :: us

theorem mem_place {t v : Timer} {us : List Timer} : v ∈ place t us ↔ v = t ∨ v ∈ us := by
  induction us with
  | nil => simp [place]
  | cons u us ih =>
    unfold place
    split
    · rw [List.mem_cons, ih, List.mem_cons]
      exact or_left_comm
    · simp

theorem place_sorted {t : Timer} {us : List Timer} (h : us.Pairwise Timer.NotAfter) :
    (place t us).Pairwise Timer.NotAfter := by
  induction us with
  | nil => simp [place]
  | cons u us ih =>
    have ⟨hu, hus⟩ := List.pairwise_cons.1 h
    unfold place
    split
    · rename_i hut
      refine List.pairwise_cons.2 ⟨?_, ih hus⟩
      intro v hv
      rcases mem_place.1 hv with rfl | hv
      · exact hut
      · exact hu v hv
    · rename_i hut
      have htu : Timer.NotAfter t u := (Timer.NotAfter.total u t).resolve_left hut
      refine List.pairwise_cons.2 ⟨?_, h⟩
      intro v hv
      rcases List.mem_cons.1 hv with rfl | hv
      · exact htu
      · exact htu.trans (hu v hv)

/-- Puts a timer into its place. -/
def insert (t : Timer) (a : Agenda) : Agenda := ⟨place t a.timers, place_sorted a.sorted⟩

/-- The timers due at an instant, in the order in which they fire. -/
def due (a : Agenda) (now : Int) : List Timer :=
  a.timers.takeWhile fun t => decide (t.due ≤ now)

/-- The agenda without the timers due at an instant. -/
def after (a : Agenda) (now : Int) : Agenda :=
  ⟨a.timers.dropWhile fun t => decide (t.due ≤ now),
    a.sorted.sublist (List.dropWhile_sublist _)⟩

/-- The instant at which the next timer is due. -/
def next? (a : Agenda) : Option Int := a.timers.head?.map (·.due)

/-! ### The timers of an agenda -/

theorem mem_insert {t v : Timer} {a : Agenda} :
    v ∈ (a.insert t).timers ↔ v = t ∨ v ∈ a.timers := mem_place

theorem due_append_after (a : Agenda) (now : Int) :
    a.due now ++ (a.after now).timers = a.timers :=
  List.takeWhile_append_dropWhile

/-- A timer of the agenda is kept iff it is due later. -/
theorem mem_after_iff {a : Agenda} {now : Int} {t : Timer} :
    t ∈ (a.after now).timers ↔ t ∈ a.timers ∧ now < t.due := by
  have key : ∀ us : List Timer, us.Pairwise Timer.NotAfter →
      (t ∈ us.dropWhile (fun t => decide (t.due ≤ now)) ↔ t ∈ us ∧ now < t.due) := by
    intro us hus
    induction us with
    | nil => simp
    | cons u us ih =>
      have ⟨hu, hus'⟩ := List.pairwise_cons.1 hus
      by_cases h : u.due ≤ now
      · rw [List.dropWhile_cons_of_pos (by simpa using h), ih hus', List.mem_cons]
        constructor
        · rintro ⟨hm, hlt⟩
          exact ⟨Or.inr hm, hlt⟩
        · rintro ⟨rfl | hm, hlt⟩
          · omega
          · exact ⟨hm, hlt⟩
      · rw [List.dropWhile_cons_of_neg (by simpa using h), List.mem_cons]
        constructor
        · intro hm
          refine ⟨hm, ?_⟩
          rcases hm with rfl | hm
          · omega
          · have := (hu t hm).due_le; omega
        · exact fun hm => hm.1
  exact key a.timers a.sorted

end Agenda

end HeartKeypad
