import HeartKeypad.Proofs.Show.Upkeep

/-!
# Batches of advances

Advancing a show to several instants, one right behind the other, is the same as advancing
it once to the latest of them: the same show is left, drawing from the same source, and the
same is reported in the same order.

* `Show.advance_then_advance` — two advances as one.
* `Show.run_map_advance` — any number of them.

### Why the order of the draws is kept

Hearts draw their targets when their timers fire, so it matters which timer fires first.
The timers due at the later instant are those due at the earlier one and behind them the
others (`Agenda.due_max`), and firing a timer neither reads nor writes the agenda
(`Show.fire_withAgenda`): the same timers fire in the same order, however they are cut into
batches.
-/

namespace HeartKeypad

namespace Agenda

/-- Of two instants the later one decides which timers are kept. -/
theorem after_after (a : Agenda) (t u : Int) : (a.after t).after u = a.after (max t u) := by
  have key : ∀ us : List Timer,
      (us.dropWhile fun x => decide (x.due ≤ t)).dropWhile (fun x => decide (x.due ≤ u)) =
        us.dropWhile fun x => decide (x.due ≤ max t u) := by
    intro us
    induction us with
    | nil => rfl
    | cons x us ih =>
        by_cases first : x.due ≤ t
        · have both : x.due ≤ max t u := by omega
          simpa [first, both] using ih
        · -- nothing goes at the earlier instant, so the later one is on its own
          by_cases second : x.due ≤ u
          · have later : max t u = u := by omega
            rw [List.dropWhile_cons_of_neg (by simpa using first), later]
          · have neither : ¬ x.due ≤ max t u := by omega
            rw [List.dropWhile_cons_of_neg (by simpa using first),
              List.dropWhile_cons_of_neg (by simpa using second),
              List.dropWhile_cons_of_neg (by simpa using neither)]
  rw [after]
  simp only [after, key]

/-- The timers due at the later of two instants are those due at the first and, of the
others, those due at the second. -/
theorem due_max (a : Agenda) (t u : Int) : a.due (max t u) = a.due t ++ (a.after t).due u := by
  have whole := due_append_after a t
  have rest := due_append_after (a.after t) u
  have later := due_append_after a (max t u)
  rw [after_after] at rest
  rw [← rest, ← List.append_assoc] at whole
  exact List.append_cancel_right (later.trans whole.symm)

end Agenda

namespace Show

/-- The show with another agenda. -/
def withAgenda (a : Agenda) (s : Show) : Show := { s with agenda := a }

/-- Reports and the show they come from, with another agenda. -/
def refile (a : Agenda) (r : List Event × Show) : List Event × Show := (r.1, r.2.withAgenda a)

/-- Reports behind those made before. -/
def behind (events : List Event) (r : List Event × Show) : List Event × Show :=
  (events ++ r.1, r.2)

@[simp] theorem agenda_withAgenda (a : Agenda) (s : Show) : (s.withAgenda a).agenda = a := rfl

theorem behind_nil : behind [] = id := rfl

theorem behind_behind (first second : List Event) (r : List Event × Show) :
    behind first (behind second r) = behind (first ++ second) r := by
  simp [behind]

theorem refile_behind (a : Agenda) (events : List Event) (r : List Event × Show) :
    refile a (behind events r) = behind events (refile a r) := rfl

theorem refile_refile (a b : Agenda) (r : List Event × Show) :
    refile b (refile a r) = refile b r := rfl

/-! ### Firing does not look at the agenda -/

theorem raise_withAgenda (a : Agenda) (id : Nat) (due : Int) (s : Show) :
    (s.withAgenda a).raise id due = refile a <$> s.raise id due := by
  have same : (s.withAgenda a).get? id = s.get? id := rfl
  unfold raise
  rw [same]
  cases s.get? id with
  | none => rfl
  | some heart =>
      by_cases waits : heart.phase = .spawned
      · -- the target is drawn under the same settings from the same source
        simp only [waits, if_true, map_bind]
        rfl
      · simp only [waits, if_false]
        rfl

theorem finish_withAgenda (a : Agenda) (id : Nat) (s : Show) :
    (s.withAgenda a).finish id = refile a (s.finish id) := by
  have same : (s.withAgenda a).get? id = s.get? id := rfl
  unfold finish
  rw [same]
  cases s.get? id with
  | none => rfl
  | some heart => rfl

theorem fire_withAgenda (a : Agenda) (t : Timer) (s : Show) :
    (s.withAgenda a).fire t = refile a <$> s.fire t := by
  unfold fire
  cases t.effect with
  | rise => exact raise_withAgenda a t.heart t.due s
  | expire =>
      show Except.ok ((s.withAgenda a).finish t.heart) = Except.ok (refile a (s.finish t.heart))
      rw [finish_withAgenda]

/-- Firing timers, as one computation behind another. -/
theorem fireAll_cons_eq (t : Timer) (ts : List Timer) (s : Show) :
    fireAll (t :: ts) s = s.fire t >>= fun r => behind r.1 <$> fireAll ts r.2 := by
  rw [fireAll]
  refine bind_congr fun r => ?_
  rw [map_eq_pure_bind]
  rfl

theorem fireAll_withAgenda (a : Agenda) (ts : List Timer) (s : Show) :
    fireAll ts (s.withAgenda a) = refile a <$> fireAll ts s := by
  induction ts generalizing s with
  | nil => rfl
  | cons t ts ih =>
      rw [fireAll_cons_eq, fireAll_cons_eq, fire_withAgenda, bind_map_left, map_bind]
      refine bind_congr fun r => ?_
      show behind r.1 <$> fireAll ts (r.2.withAgenda a) = _
      simp only [ih, Functor.map_map, refile_behind]

/-- Timers may be fired in two batches. -/
theorem fireAll_append (ts us : List Timer) (s : Show) :
    fireAll (ts ++ us) s = fireAll ts s >>= fun r => behind r.1 <$> fireAll us r.2 := by
  induction ts generalizing s with
  | nil =>
      show fireAll us s = behind [] <$> fireAll us s
      rw [behind_nil, id_map]
  | cons t ts ih =>
      rw [List.cons_append, fireAll_cons_eq, fireAll_cons_eq, bind_assoc]
      refine bind_congr fun r => ?_
      simp only [ih, bind_map_left, map_bind, Functor.map_map, behind_behind]
      rfl

/-! ### Advances -/

theorem advance_eq (now : Int) (s : Show) :
    s.advance now = refile (s.agenda.after now) <$> fireAll (s.agenda.due now) s :=
  fireAll_withAgenda _ _ s

/-- **Two advances are one**, to the later of the two instants. -/
theorem advance_then_advance (t u : Int) (s : Show) :
    (s.advance t >>= fun r => behind r.1 <$> r.2.advance u) = s.advance (max t u) := by
  rw [advance_eq t, advance_eq (max t u), Agenda.due_max, fireAll_append, bind_map_left, map_bind]
  refine bind_congr fun r => ?_
  -- the second batch starts from the agenda that the first one left
  show behind r.1 <$> (r.2.withAgenda (s.agenda.after t)).advance u = _
  rw [advance_eq, agenda_withAgenda, fireAll_withAgenda, Agenda.after_after]
  simp only [Functor.map_map, refile_refile, refile_behind]

/-- A history, as one computation behind another. -/
theorem run_cons_eq (a : Action) (as : List Action) (s : Show) :
    run (a :: as) s = s.act a >>= fun r => behind r.1 <$> run as r.2 := by
  rw [run]
  refine bind_congr fun r => ?_
  rw [map_eq_pure_bind]
  rfl

theorem run_singleton (a : Action) (s : Show) : run [a] s = s.act a := by
  rw [run_cons_eq]
  have whole : ∀ r : List Event × Show, behind r.1 <$> run [] r.2 = pure r := by
    intro r
    show Except.ok (r.1 ++ [], r.2) = Except.ok r
    rw [List.append_nil]
  simp only [whole, bind_pure]

/-- **Batching advances makes no difference.**  From any show, advancing to several instants
in any order, with nothing in between, leaves the show and makes the reports of a single
advance to the latest of them; and if one way is at fault, so is the other. -/
theorem run_map_advance (s : Show) (t : Int) (ts : List Int) :
    s.run ((t :: ts).map .advance) = s.advance (ts.foldl max t) := by
  induction ts generalizing t with
  | nil => exact run_singleton (.advance t) s
  | cons u ts ih =>
      -- the first two advances are one, and the rest is a batch behind it
      have one : s.act (.advance (max t u)) =
          s.act (.advance t) >>= fun r => behind r.1 <$> r.2.act (.advance u) :=
        (advance_then_advance t u s).symm
      rw [List.foldl_cons, ← ih, List.map_cons, List.map_cons, List.map_cons, run_cons_eq,
        run_cons_eq, one, bind_assoc]
      refine bind_congr fun r => ?_
      rw [run_cons_eq]
      simp only [bind_map_left, map_bind, Functor.map_map, behind_behind]
      rfl

end Show

end HeartKeypad
