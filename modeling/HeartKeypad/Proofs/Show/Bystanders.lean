import HeartKeypad.Proofs.Show.Batching
import HeartKeypad.Proofs.Show.Faults

/-!
# A cancelled heart and the others

Suppose a live heart is cancelled, and then the history goes on as it would have without that.
Nobody else notices: the same hearts are released, rise and end, at the same instants and in the
same order, and the same timers are left on the agenda.  What may change is where the others
go, since a heart that is gone does not draw a target any more, and the words it would have drawn
go to those behind it.  If rises draw nothing, not even that changes.

* `Heart.Course` — what is known of a heart without looking at what was drawn for it.
* `Show.Alike` — two shows that differ at most in what was drawn.
* `Show.Beside` — a show, and one that is like it but for one heart.
* `Show.bystanders_of_cancel` — cancelling a heart does not disturb the others.

### Two reasons, kept apart

Whatever is done about the others, it does not matter whether the cancelled heart is there:
taking it out commutes with firing their timers (`Show.fire_remove`) and with releasing hearts
(`Show.release_remove`).  Its own timers are the exception.  With the heart there they may draw
words, and without it they do not; so from the first of them on the two shows draw from
different sources.

That this changes nothing but positions, sizes, colors and targets is the second reason.  Timers
find their hearts by number and ask only for the phase, and whether a draw is at fault is not for
the words to say (`Show.exists_drawPoint_iff`): shows that are alike stay alike
(`Show.Alike.fire`, `Show.Alike.release`).
-/

namespace HeartKeypad

/-! ### What is not drawn -/

/-- **What is known of a heart without looking at what was drawn for it.** -/
structure Heart.Course where
  id : Nat
  phase : Phase
  createdAt : Int
  riseStartedAt : Option Int
deriving DecidableEq

/-- The course of a heart. -/
def Heart.course (h : Heart) : Course := ⟨h.id, h.phase, h.createdAt, h.riseStartedAt⟩

/-- Where a heart rises to is not part of its course. -/
theorem Heart.course_risen {g h : Heart} (same : g.course = h.course) (due : Int) (p q : Point) :
    (g.risen due p).course = (h.risen due q).course := by
  obtain ⟨id, -, createdAt, -⟩ := Course.mk.inj same
  show Course.mk g.id .rising g.createdAt (some due) = Course.mk h.id .rising h.createdAt (some due)
  rw [id, createdAt]

theorem Heart.Waiting.course_eq {h : Heart} (waits : h.Waiting) :
    h.course = ⟨h.id, .spawned, h.createdAt, none⟩ := by
  rw [Heart.course, waits.phase, waits.riseStartedAt]

/-- A rise draws nothing: no offset of it is positive. -/
def Rise.Still (r : Rise) : Prop := ¬ 0.0 < r.jitterX ∧ ¬ 0.0 < r.jitterY

theorem Rise.still_of_zero {r : Rise} (x : r.jitterX = 0.0) (y : r.jitterY = 0.0) : r.Still := by
  have flat : ¬ (0.0 : Float) < 0.0 := by decide
  exact ⟨x ▸ flat, y ▸ flat⟩

namespace Show

/-- What a report says without the draws: whether a heart rises or ends, and which. -/
def Event.note (e : Event) : Bool × Nat := (e.isRise, e.id)

/-- The reports that are not about a heart. -/
def without (k : Nat) (log : List Event) : List Event := log.filter (·.id != k)

variable {e : Effects} {k : Nat} {s s' u u' : Show} {events told : List Event} {t : Timer}
  {ts : List Timer}

theorem without_append (first more : List Event) :
    without k (first ++ more) = without k first ++ without k more :=
  List.filter_append ..

/-- A target that nothing is drawn for leaves the source as it is. -/
theorem source_of_drawPoint {r : Rise} (still : r.Still) {x y : Float} {w : WordSource}
    {p : Point × WordSource} (h : drawPoint x y r.jitterX r.jitterY w = .ok p) : p.2 = w := by
  have drawless : ∀ {spread : Float} {w : WordSource}, ¬ 0.0 < spread →
      w.jitter spread = .ok (0.0, w) := fun flat => if_neg flat
  unfold drawPoint at h
  obtain ⟨⟨dx, w₁⟩, hx, h⟩ := bind_eq_ok_iff.1 h
  obtain ⟨⟨dy, w₂⟩, hy, h⟩ := bind_eq_ok_iff.1 h
  rw [drawless still.1] at hx
  cases hx
  rw [drawless still.2] at hy
  cases hy
  cases h
  rfl

/-! ### Shows that differ in what was drawn -/

theorem SameFrame.symm (h : SameFrame s s') : SameFrame s' s where
  effects := h.effects.symm
  agenda := h.agenda.symm
  nextSeq := h.nextSeq.symm
  nextId := h.nextId.symm

/-- **Two shows that differ at most in what was drawn**, and in nothing if rises draw
nothing. -/
structure Alike (e : Effects) (s u : Show) : Prop where
  effects : s.effects = e
  frame : SameFrame s u
  courses : s.live.map Heart.course = u.live.map Heart.course
  still : e.rise.Still → s = u

/-- **Two logs that differ at most in what was drawn**, and in nothing if rises draw
nothing. -/
structure Echo (e : Effects) (events told : List Event) : Prop where
  notes : events.map Event.note = told.map Event.note
  still : e.rise.Still → events = told

theorem Echo.append {more retold : List Event} (first : Echo e events told)
    (rest : Echo e more retold) : Echo e (events ++ more) (told ++ retold) where
  notes := by rw [List.map_append, List.map_append, first.notes, rest.notes]
  still := fun still => by rw [first.still still, rest.still still]

namespace Alike

/-- The hearts with one number have one course. -/
theorem course_get? (a : Alike e s u) (id : Nat) :
    (s.get? id).map Heart.course = (u.get? id).map Heart.course := by
  have known : ∀ live : List Heart, (live.find? (·.id == id)).map Heart.course =
      (live.map Heart.course).find? (·.id == id) := by
    intro live
    rw [List.find?_map]
    rfl
  rw [get?, get?, known, known, a.courses]

theorem get?_eq_none (a : Alike e s u) {id : Nat} (gone : s.get? id = none) :
    u.get? id = none := by
  have same := a.course_get? id
  rw [gone] at same
  exact Option.map_eq_none_iff.1 same.symm

theorem exists_get? (a : Alike e s u) {id : Nat} {heart : Heart}
    (found : s.get? id = some heart) :
    ∃ other, u.get? id = some other ∧ heart.course = other.course := by
  have same := a.course_get? id
  rw [found] at same
  obtain ⟨other, found', course⟩ := Option.map_eq_some_iff.1 same.symm
  exact ⟨other, found', course.symm⟩

/-- Taking the same heart out of both. -/
theorem remove (a : Alike e s u) (id : Nat) : Alike e (s.remove id) (u.remove id) where
  effects := a.effects
  frame := { a.frame with }
  courses := by
    have known : ∀ live : List Heart, (live.filter (·.id != id)).map Heart.course =
        (live.map Heart.course).filter (·.id != id) := by
      intro live
      rw [List.filter_map]
      rfl
    show (s.live.filter _).map _ = (u.live.filter _).map _
    rw [known, known, a.courses]
  still := fun still => by rw [a.still still]

theorem courses_replace (a : Alike e s u) {g h : Heart} (same : g.course = h.course) :
    (s.replace g).live.map Heart.course = (u.replace h).live.map Heart.course := by
  -- the course takes the place of the one with its number
  have known : ∀ (h : Heart) (live : List Heart),
      (live.map fun x => if x.id == h.id then h else x).map Heart.course =
        (live.map Heart.course).map fun c => if c.id == h.course.id then h.course else c := by
    intro h live
    rw [List.map_map, List.map_map]
    refine List.map_congr_left fun x _ => ?_
    exact apply_ite Heart.course _ h x
  show (s.live.map _).map _ = (u.live.map _).map _
  rw [known, known, same, a.courses]

theorem withAgenda (a : Alike e s u) (agenda : Agenda) :
    Alike e (s.withAgenda agenda) (u.withAgenda agenda) where
  effects := a.effects
  frame := { a.frame with agenda := rfl }
  courses := a.courses
  still := fun still => by rw [a.still still]

/-- The source is drawn as well. -/
theorem redrawn (a : Alike e s u) {w : WordSource} (kept : e.rise.Still → w = s.source) :
    Alike e (s.withSource w) u where
  effects := a.effects
  frame := { a.frame with }
  courses := a.courses
  still := by
    intro still
    rw [kept still]
    exact a.still still

/-- A timer finds the same to do in shows that are alike. -/
theorem exists_fire (a : Alike e s u) (h : s.fire t = .ok (events, s')) :
    ∃ told u', u.fire t = .ok (told, u') ∧ events.map Event.note = told.map Event.note ∧
      s'.live.map Heart.course = u'.live.map Heart.course := by
  cases fires_of_fire h with
  | @rises heart target w effect found waits =>
      obtain ⟨other, found', course⟩ := a.exists_get? found
      have waits' : other.phase = .spawned := (congrArg Heart.Course.phase course).symm.trans waits
      -- what one show could draw, the other can
      rw [fire_of_waiting effect found waits] at h
      obtain ⟨drawn, succeeds, -⟩ := bind_eq_ok_iff.1 h
      have drawable := exists_drawPoint_iff.1 ⟨drawn, succeeds⟩
      rw [← a.frame.effects] at drawable
      obtain ⟨p, drawn'⟩ := exists_drawPoint_iff.2 drawable
      refine ⟨[.rose t.heart p.1], (u.replace (other.risen t.due p.1)).withSource p.2, ?_, rfl,
        a.courses_replace (Heart.course_risen course t.due target p.1)⟩
      rw [fire_of_waiting effect found' waits']
      exact bind_eq_ok_iff.2 ⟨p, drawn', rfl⟩
  | @ends heart effect found =>
      obtain ⟨other, found', course⟩ := a.exists_get? found
      have same : heart.id = other.id := congrArg Heart.Course.id course
      refine ⟨_, _, fire_of_live effect found', ?_, (a.remove t.heart).courses⟩
      show [(false, heart.id)] = [(false, other.id)]
      rw [same]
  | late effect risen =>
      refine ⟨[], u, fire_of_late effect fun other found' => ?_, rfl, a.courses⟩
      -- a heart that the other show finds has its counterpart here
      have same := a.course_get? t.heart
      rw [found'] at same
      obtain ⟨heart, found, course⟩ := Option.map_eq_some_iff.1 same
      have phase : heart.phase = other.phase := congrArg Heart.Course.phase course
      exact phase ▸ risen heart found
  | gone effect absent => exact ⟨[], u, fire_of_gone (a.get?_eq_none absent), rfl, a.courses⟩

/-- **Firing a timer keeps shows alike.** -/
theorem fire (a : Alike e s u) (h : s.fire t = .ok (events, s')) :
    ∃ told u', u.fire t = .ok (told, u') ∧ Echo e events told ∧ Alike e s' u' := by
  obtain ⟨told, u', h', notes, courses⟩ := a.exists_fire h
  have frame := (fires_of_fire h).sameFrame
  have same : e.rise.Still → events = told ∧ s' = u' := by
    intro still
    rw [a.still still, h'] at h
    cases h
    exact ⟨rfl, rfl⟩
  refine ⟨told, u', h', ⟨notes, fun still => (same still).1⟩, frame.effects.trans a.effects, ?_,
    courses, fun still => (same still).2⟩
  exact (frame.symm.trans a.frame).trans (fires_of_fire h').sameFrame

/-- **Releasing a heart keeps shows alike.** -/
theorem release (a : Alike e s u) {origin : Point} {now riseAt endAt : Int}
    (h : s.release origin now riseAt endAt = .ok s') :
    ∃ u', u.release origin now riseAt endAt = .ok u' ∧ Alike e s' u' := by
  have drawable := exists_release_iff.1 ⟨s', h⟩
  rw [← a.frame.effects] at drawable
  obtain ⟨u', h'⟩ := exists_release_iff.2 drawable
  refine ⟨u', h', ?_⟩
  have same : e.rise.Still → s' = u' := by
    intro still
    rw [a.still still, h'] at h
    cases h
    rfl
  obtain ⟨g, w, number, createdAt, waits, rfl⟩ := release_eq_ok h
  obtain ⟨g', w', number', createdAt', waits', rfl⟩ := release_eq_ok h'
  obtain ⟨effects, agenda, nextSeq, nextId⟩ := a.frame
  refine ⟨a.effects, ⟨effects, ?_, ?_, ?_⟩, ?_, same⟩
  · dsimp only
    rw [agenda, nextSeq, nextId]
  · dsimp only
    rw [nextSeq]
  · dsimp only
    rw [nextId]
  · have course : g.course = g'.course := by
      rw [waits.course_eq, waits'.course_eq, number, number', createdAt, createdAt', nextId]
    dsimp only
    rw [List.map_append, List.map_append, a.courses, List.map_singleton, List.map_singleton,
      course]

end Alike

/-! ### Shows without a heart -/

theorem remove_remove (i j : Nat) : (s.remove i).remove j = (s.remove j).remove i := by
  simp only [remove, List.filter_filter, Bool.and_comm]

theorem remove_remove_self (id : Nat) : (s.remove id).remove id = s.remove id := by
  simp only [remove, List.filter_filter, Bool.and_self]

theorem get?_remove_self : (s.remove k).get? k = none :=
  get?_eq_none_iff.2 fun _ hh => (mem_remove.1 hh).2

theorem get?_remove_of_ne {id : Nat} (other : id ≠ k) : (s.remove k).get? id = s.get? id := by
  rw [get?, get?, remove, List.find?_filter]
  refine congrArg (List.find? · s.live) (funext fun h => ?_)
  -- a heart that has the one number does not have the other
  by_cases same : h.id = id
  · simp [same, other]
  · simp [same]

/-- Replacing hearts leaves their numbers, and so who is taken out. -/
theorem remove_replace (heart : Heart) :
    (s.replace heart).remove k = (s.remove k).replace heart := by
  have known : (s.live.map fun h => if h.id == heart.id then heart else h).filter (·.id != k) =
      (s.live.filter (·.id != k)).map fun h => if h.id == heart.id then heart else h := by
    rw [List.filter_map]
    refine congrArg (List.map _) (List.filter_congr fun h _ => ?_)
    rw [Function.comp_apply]
    split
    · rename_i same
      rw [beq_iff_eq.1 same]
    · rfl
  simp only [replace, remove, known]

/-- A heart takes the place of nobody if its number is not there. -/
theorem replace_of_gone {heart : Heart} (gone : s.get? heart.id = none) :
    s.replace heart = s := by
  have known : (s.live.map fun h => if h.id == heart.id then heart else h) = s.live := by
    refine (List.map_congr_left fun h hh => ?_).trans (List.map_id s.live)
    exact if_neg fun same => get?_eq_none_iff.1 gone h hh (beq_iff_eq.1 same)
  rw [replace, known]

/-- Taking a heart out makes no difference to the timers of the others. -/
theorem fire_remove (other : t.heart ≠ k) :
    (s.remove k).fire t = (fun r => (r.1, r.2.remove k)) <$> s.fire t := by
  cases effect : t.effect with
  | rise =>
      rcases s.waiting_or_late t.heart with ⟨heart, found, waits⟩ | late
      · rw [fire_of_waiting effect found waits,
          fire_of_waiting effect ((get?_remove_of_ne other).trans found) waits, map_bind]
        refine bind_congr fun p => ?_
        rw [← remove_replace]
        rfl
      · rw [fire_of_late effect late, fire_of_late effect (by rwa [get?_remove_of_ne other])]
        rfl
  | expire =>
      cases found : s.get? t.heart with
      | none =>
          rw [fire_of_gone found, fire_of_gone ((get?_remove_of_ne other).trans found)]
          rfl
      | some heart =>
          rw [fire_of_live effect found,
            fire_of_live effect ((get?_remove_of_ne other).trans found), remove_remove]
          rfl

/-- A timer may draw words; otherwise it leaves all hearts but its own as they are. -/
theorem remove_of_fire (h : s.fire t = .ok (events, s')) :
    s'.remove t.heart = (s.remove t.heart).withSource s'.source := by
  cases fires_of_fire h with
  | @rises heart target w effect found waits =>
      have number : (heart.risen t.due target).id = t.heart := (mem_of_get? found).2
      have gone : (s.remove t.heart).get? (heart.risen t.due target).id = none := by
        rw [number]
        exact get?_remove_self
      show ((s.replace (heart.risen t.due target)).remove t.heart).withSource w = _
      rw [remove_replace, replace_of_gone gone]
  | ends effect found => exact remove_remove_self t.heart
  | late effect risen => rfl
  | gone effect absent => rfl

/-- It draws none if rises draw nothing. -/
theorem source_of_fire (still : s.effects.rise.Still) (h : s.fire t = .ok (events, s')) :
    s'.source = s.source := by
  cases fires_of_fire h with
  | @rises heart target w effect found waits =>
      rw [fire_of_waiting effect found waits] at h
      obtain ⟨p, drawn, h⟩ := bind_eq_ok_iff.1 h
      cases h
      exact source_of_drawPoint still drawn
  | ends effect found => rfl
  | late effect risen => rfl
  | gone effect absent => rfl

/-- What a timer reports is about its heart. -/
theorem id_of_fire (h : s.fire t = .ok (events, s')) : ∀ r ∈ events, r.id = t.heart := by
  intro r hr
  cases fires_of_fire h with
  | rises effect found waits =>
      cases List.mem_singleton.1 hr
      rfl
  | ends effect found =>
      cases List.mem_singleton.1 hr
      exact (mem_of_get? found).2
  | late effect risen => cases hr
  | gone effect absent => cases hr

/-- Taking an old heart out makes no difference to the ones that are released. -/
theorem release_remove (old : k < s.nextId) {origin : Point} {now riseAt endAt : Int}
    (h : s.release origin now riseAt endAt = .ok s') :
    (s.remove k).release origin now riseAt endAt = .ok (s'.remove k) := by
  unfold release at h
  obtain ⟨position, hposition, h⟩ := bind_eq_ok_iff.1 h
  obtain ⟨size, hsize, h⟩ := bind_eq_ok_iff.1 h
  obtain rfl := Except.ok.inj h
  refine bind_eq_ok_iff.2 ⟨_, hposition, bind_eq_ok_iff.2 ⟨_, hsize, ?_⟩⟩
  have new : s.nextId ≠ k := by omega
  simp [remove, new]

/-! ### Side by side -/

/-- **A show, and one that is like it but for a heart**, which was born before. -/
structure Beside (e : Effects) (k : Nat) (s u : Show) : Prop where
  old : k < s.nextId
  alike : Alike e (s.remove k) u

namespace Beside

/-- A timer of the missing heart may draw words, and does nothing else that shows. -/
theorem fire (b : Beside e k s u) (h : s.fire t = .ok (events, s')) :
    ∃ told u', u.fire t = .ok (told, u') ∧ Echo e (without k events) told ∧
      Beside e k s' u' := by
  have old : k < s'.nextId := (fires_of_fire h).sameFrame.nextId ▸ b.old
  by_cases own : t.heart = k
  · obtain rfl := own
    have silent : without t.heart events = [] := by
      refine List.filter_eq_nil_iff.2 fun r hr => ?_
      simp [id_of_fire h r hr]
    refine ⟨[], u, fire_of_gone (b.alike.get?_eq_none get?_remove_self), ?_, old, ?_⟩
    · rw [silent]
      exact ⟨rfl, fun _ => rfl⟩
    · rw [remove_of_fire h]
      have kept : e.rise.Still → s'.source = s.source := by
        intro still
        rw [← b.alike.effects] at still
        exact source_of_fire still h
      exact b.alike.redrawn kept
  · have spoken : without k events = events := by
      refine List.filter_eq_self.2 fun r hr => ?_
      simp [id_of_fire h r hr, own]
    have h' : (s.remove k).fire t = .ok (events, s'.remove k) := by
      rw [fire_remove own, h]
      rfl
    obtain ⟨told, u', hu, echo, alike⟩ := b.alike.fire h'
    exact ⟨told, u', hu, spoken.symm ▸ echo, old, alike⟩

theorem fireAll (b : Beside e k s u) (h : fireAll ts s = .ok (events, s')) :
    ∃ told u', Show.fireAll ts u = .ok (told, u') ∧ Echo e (without k events) told ∧
      Beside e k s' u' := by
  induction ts generalizing s u events with
  | nil =>
      cases h
      exact ⟨[], u, rfl, ⟨rfl, fun _ => rfl⟩, b⟩
  | cons t ts ih =>
      obtain ⟨first, s₁, more, ht, hts, rfl⟩ := fireAll_cons.1 h
      obtain ⟨told, u₁, ht', echo, b₁⟩ := b.fire ht
      obtain ⟨retold, u', hts', echo', b'⟩ := ih b₁ hts
      refine ⟨told ++ retold, u', fireAll_cons.2 ⟨told, u₁, retold, ht', hts', rfl⟩, ?_, b'⟩
      rw [without_append]
      exact echo.append echo'

/-- The same timers have come due in both. -/
theorem advance (b : Beside e k s u) {now : Int} (h : s.advance now = .ok (events, s')) :
    ∃ told u', u.advance now = .ok (told, u') ∧ Echo e (without k events) told ∧
      Beside e k s' u' := by
  have agenda : u.agenda = s.agenda := b.alike.frame.agenda
  have filed : Beside e k (s.withAgenda (s.agenda.after now))
      (u.withAgenda (u.agenda.after now)) := by
    rw [agenda]
    exact ⟨b.old, b.alike.withAgenda _⟩
  unfold Show.advance
  rw [agenda]
  rw [agenda] at filed
  exact filed.fireAll h

theorem releaseMany (b : Beside e k s u) {origin : Point} {now riseAt endAt : Int} {n : Nat}
    (h : s.releaseMany origin now riseAt endAt n = .ok s') :
    ∃ u', u.releaseMany origin now riseAt endAt n = .ok u' ∧ Beside e k s' u' := by
  induction n generalizing s u with
  | zero =>
      cases h
      exact ⟨u, rfl, b⟩
  | succ n ih =>
      obtain ⟨s₁, first, rest⟩ := bind_eq_ok_iff.1 h
      obtain ⟨u₁, first', alike⟩ := b.alike.release (release_remove b.old first)
      have old : k < s₁.nextId := by
        obtain ⟨heart, w, -, -, -, rfl⟩ := release_eq_ok first
        exact Nat.lt_succ_of_lt b.old
      obtain ⟨u', rest', b'⟩ := ih ⟨old, alike⟩ rest
      exact ⟨u', bind_eq_ok_iff.2 ⟨u₁, first', rest'⟩, b'⟩

/-- The settings say when hearts rise and end, and how many there are. -/
theorem burst (b : Beside e k s u) {origin : Point} {now : Int}
    (h : s.burst origin now = .ok s') :
    ∃ u', u.burst origin now = .ok u' ∧ Beside e k s' u' := by
  have effects : u.effects = s.effects := b.alike.frame.effects
  unfold Show.burst at h ⊢
  obtain ⟨riseDelay, hdelay, h⟩ := bind_eq_ok_iff.1 h
  obtain ⟨riseAt, hrise, h⟩ := bind_eq_ok_iff.1 h
  obtain ⟨lifetime, hlifetime, h⟩ := bind_eq_ok_iff.1 h
  obtain ⟨endAt, hend, h⟩ := bind_eq_ok_iff.1 h
  obtain ⟨u', h', b'⟩ := b.releaseMany h
  rw [effects]
  exact ⟨u', bind_eq_ok_iff.2 ⟨_, hdelay, bind_eq_ok_iff.2 ⟨_, hrise, bind_eq_ok_iff.2
    ⟨_, hlifetime, bind_eq_ok_iff.2 ⟨_, hend, h'⟩⟩⟩⟩, b'⟩

/-- **An action is carried out alike side by side.** -/
theorem act (b : Beside e k s u) {a : Action} (h : s.act a = .ok (events, s')) :
    ∃ told u', u.act a = .ok (told, u') ∧ Echo e (without k events) told ∧
      Beside e k s' u' := by
  cases a with
  | burst origin now =>
      obtain ⟨hburst, rfl⟩ := act_burst.1 h
      obtain ⟨u', hburst', b'⟩ := b.burst hburst
      exact ⟨[], u', act_burst.2 ⟨hburst', rfl⟩, ⟨rfl, fun _ => rfl⟩, b'⟩
  | advance now => exact b.advance h
  | cancel id =>
      cases h
      refine ⟨[], u.remove id, rfl, ⟨rfl, fun _ => rfl⟩, b.old, ?_⟩
      show Alike e ((s.remove id).remove k) (u.remove id)
      rw [remove_remove]
      exact b.alike.remove id

/-- **And so is any history.** -/
theorem run (b : Beside e k s u) {history : List Action}
    (h : s.run history = .ok (events, s')) :
    ∃ told u', u.run history = .ok (told, u') ∧ Echo e (without k events) told ∧
      Beside e k s' u' := by
  induction history generalizing s u events with
  | nil =>
      cases h
      exact ⟨[], u, rfl, ⟨rfl, fun _ => rfl⟩, b⟩
  | cons a as ih =>
      obtain ⟨first, s₁, more, ha, has, rfl⟩ := run_cons.1 h
      obtain ⟨told, u₁, ha', echo, b₁⟩ := b.act ha
      obtain ⟨retold, u', has', echo', b'⟩ := ih b₁ has
      refine ⟨told ++ retold, u', run_cons.2 ⟨told, u₁, retold, ha', has', rfl⟩, ?_, b'⟩
      rw [without_append]
      exact echo.append echo'

end Beside

/-! ### Nobody else notices -/

/-- **Nobody but the heart notices** that the second log and show come from a history without
it.  Its own reports are missing in the second log, and it is missing in the second show. -/
structure Undisturbed (e : Effects) (k : Nat) (log : List Event) (s : Show)
    (log' : List Event) (s' : Show) : Prop where
  /-- The other hearts are reported to rise and end in the same order. -/
  notes : (without k log).map Event.note = log'.map Event.note
  /-- The other hearts are live, and as far as on without it. -/
  courses : (s.remove k).live.map Heart.course = s'.live.map Heart.course
  pending : s.pendingTimers = s'.pendingTimers
  deadline : s.nextDeadline? = s'.nextDeadline?
  /-- If rises draw nothing, the reports and shows are the same altogether. -/
  still : e.rise.Still → without k log = log' ∧ s.remove k = s'

theorem Beside.undisturbed {log log' : List Event} (b : Beside e k s u)
    (echo : Echo e (without k log) log') : Undisturbed e k log s log' u := by
  have agenda : u.agenda = s.agenda := b.alike.frame.agenda
  refine ⟨echo.notes, b.alike.courses, ?_, ?_, fun still => ⟨echo.still still, b.alike.still still⟩⟩
  · rw [pendingTimers, pendingTimers, agenda]
  · rw [nextDeadline?, nextDeadline?, agenda]

/-- **Cancelling a heart does not disturb the others.**  If a history succeeds behind a show
that has been reached, it succeeds as well once a live heart has been cancelled, and after
every step of it nobody but that heart has noticed. -/
theorem bystanders_of_cancel {source : WordSource} {past history : List Action}
    {reported : List Event} (reached : (new e source).run past = .ok (reported, s))
    (live : (s.get? k).isSome) (succeeds : ∃ r, s.run history = .ok r) :
    ∀ steps, steps <+: history → ∃ log s₁ log' s₂, s.run steps = .ok (log, s₁) ∧
      (s.cancel k).2.run steps = .ok (log', s₂) ∧ Undisturbed e k log s₁ log' s₂ := by
  rintro steps ⟨rest, rfl⟩
  obtain ⟨⟨whole, s'⟩, h⟩ := succeeds
  obtain ⟨log, s₁, -, hsteps, -, -⟩ := run_append.1 h
  obtain ⟨heart, found⟩ := Option.isSome_iff_exists.1 live
  obtain ⟨mem, rfl⟩ := mem_of_get? found
  have start := steady_new e source
  have cancelled : Beside e heart.id s (s.cancel heart.id).2 :=
    ⟨(start.run reached).born heart mem, (Carried.run start reached).effects,
      ⟨rfl, rfl, rfl, rfl⟩, rfl, fun _ => rfl⟩
  obtain ⟨log', s₂, hsteps', echo, b⟩ := cancelled.run hsteps
  exact ⟨log, s₁, log', s₂, hsteps, hsteps', b.undisturbed echo⟩

/-- Of two hearts, the first is cancelled before both would have risen. -/
theorem bystander_of_two_hearts :
    single.rise.Still ∧ ∃ reported s, (new single ⟨[0], 0⟩).run
        [.burst ⟨3.0, 4.0⟩ 0, .burst ⟨5.0, 6.0⟩ 5] = .ok (reported, s) ∧
      (s.get? 0).isSome ∧ ∃ log s₁ log' s₂, s.run [.advance 20000000] = .ok (log, s₁) ∧
        (s.cancel 0).2.run [.advance 20000000] = .ok (log', s₂) ∧
        log.map Event.note = [(true, 0), (true, 1)] ∧ without 0 log = log' ∧
        s₁.remove 0 = s₂ := by
  obtain ⟨reported, s, reached, live, log, s₁, rise, notes⟩ : ∃ reported s,
      (new single ⟨[0], 0⟩).run [.burst ⟨3.0, 4.0⟩ 0, .burst ⟨5.0, 6.0⟩ 5] = .ok (reported, s) ∧
      (s.get? 0).isSome ∧ ∃ log s₁, s.run [.advance 20000000] = .ok (log, s₁) ∧
        log.map Event.note = [(true, 0), (true, 1)] := ⟨_, _, rfl, rfl, _, _, rfl, rfl⟩
  have still : single.rise.Still := Rise.still_of_zero rfl rfl
  obtain ⟨log, s₁, log', s₂, h, h', quiet⟩ :=
    bystanders_of_cancel reached live ⟨_, rise⟩ [.advance 20000000] List.prefix_rfl
  cases rise.symm.trans h
  exact ⟨still, reported, s, reached, live, log, s₁, log', s₂, h, h', notes, quiet.still still⟩

end Show

end HeartKeypad
