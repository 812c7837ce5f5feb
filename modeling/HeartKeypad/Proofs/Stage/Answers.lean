import HeartKeypad.Proofs.Stage.Delivery
import Mathlib.Data.List.Nodup

/-!
# What clients are answered

Each client sees a stage through the answers to its own calls, and others come in between.  All
of them see one show all the same: there is one order of the letters, and every answer is that
of a plain show which does what the letters ask for, in this order, and is advanced by each
beat.

* `House.Answered` — an answer is that of a plain show at the place of its letter.
* `House.Seen` — what a snapshot shows of a burst that was acknowledged before it.
* `House.linear_of_play` — both, of every play, and which calls are answered at all.

### What carries the proofs

The order is that in which the mailbox takes the letters, which is the order of the calls.  The
place of an answer in the script is unique, since no two letters have one ticket
(`House.Kept.eq_of_ticket`).  What a snapshot sees of a burst is then the fate of its hearts
under the part of the script between the two (`Show.fates_of_burst`).
-/

namespace HeartKeypad

/-! ### Letters at their places -/

/-- A letter that is handled has a place in the script. -/
theorem Cue.exists_place {cues : List Cue} {l : Letter} (hl : l ∈ letters cues) :
    ∃ before now after, cues = before ++ .letter l now :: after := by
  obtain ⟨c, hc, letter⟩ := List.mem_filterMap.1 hl
  obtain ⟨before, after, split⟩ := List.append_of_mem hc
  cases c with
  | beat now => cases letter
  | letter m now =>
      cases letter
      exact ⟨before, now, after, split⟩

/-- What asks for a reply is given one. -/
theorem Command.exists_reply {command : Command} (asks : command.asks = true) (s : Show) :
    ∃ reply, command.reply? s = some reply := by
  cases command with
  | cancel id => exact ⟨_, rfl⟩
  | snapshot => exact ⟨_, rfl⟩
  | burst | tick | shutdown => cases asks

namespace House

open Cue (letters actions)
open Show (Released Reached)

variable {h : House} {c : Call} {ticket : Nat} {reply : Reply} {more : List Move}

/-! ### Results -/

theorem result_of_refused (refused : c.ticket? = none) : h.result? c = some (.error {}) := by
  rw [result?, refused]

/-- A call that asks for something has come to the reply under its ticket. -/
theorem result_eq_reply_iff : h.result? c = some (.ok (some reply)) ↔
    ∃ ticket, c.ticket? = some ticket ∧ c.command.asks = true ∧
      h.stage.replies.lookup ticket = some reply := by
  unfold result?
  cases c.ticket? with
  | none => simp
  | some ticket =>
      cases c.command.asks with
      | false => simp
      | true => cases hr : h.stage.replies.lookup ticket <;> cases h.stage.isOpen <;> simp [hr]

/-- Without a reply, the end of the stage is its end. -/
theorem result_of_unreplied (given : c.ticket? = some ticket) (asks : c.command.asks = true)
    (unreplied : h.stage.replies.lookup ticket = none) (closed : h.stage.isOpen = false) :
    h.result? c = some (.error {}) := by
  rw [result?, given]
  dsimp only
  rw [if_pos asks, unreplied, closed]
  rfl

/-! ### Calls at a closed stage -/

theorem calls_move_of_closed (closed : h.stage.show? = none) (m : Move) :
    ∃ late, (h.move m).calls = h.calls ++ late ∧ ∀ c ∈ late, c.ticket? = none := by
  have same : ∃ late, h.calls = h.calls ++ late ∧ ∀ c ∈ late, c.ticket? = none :=
    ⟨[], (List.append_nil _).symm, fun _ contra => nomatch contra⟩
  cases m with
  | call client command =>
      rw [move]
      split
      · rw [call_of_closed (Stage.isOpen_eq_false_iff.2 closed)]
        exact ⟨[⟨client, command, none⟩], rfl, fun c hc => List.mem_singleton.1 hc ▸ rfl⟩
      · exact same
  | share client other =>
      rw [move]
      split <;> exact same
  | work =>
      show ∃ late, h.work.calls = h.calls ++ late ∧ ∀ c ∈ late, c.ticket? = none
      rw [work]
      split <;> exact same
  | leave | beat | setClock => exact same

/-- **No call at a closed stage** is given a ticket. -/
theorem calls_play_of_closed (closed : h.stage.show? = none) (moves : List Move) :
    ∃ late, (h.play moves).calls = h.calls ++ late ∧ ∀ c ∈ late, c.ticket? = none := by
  induction moves generalizing h with
  | nil => exact ⟨[], (List.append_nil _).symm, fun _ contra => nomatch contra⟩
  | cons m ms ih =>
      obtain ⟨first, hfirst, refused⟩ := calls_move_of_closed closed m
      obtain ⟨rest, hrest, refused'⟩ := ih (show_move_of_closed closed m)
      refine ⟨first ++ rest, ?_, fun c hc => (List.mem_append.1 hc).elim (refused c) (refused' c)⟩
      rw [play, hrest, hfirst, List.append_assoc]

/-! ### Answers -/

/-- **An answer is that of a plain show** which has done what the script has in front of the
letter, and no more. -/
def Answered (start : Show) (cues : List Cue) (c : Call) (reply : Reply) : Prop :=
  ∃ ticket before now after events s, c.ticket? = some ticket ∧
    cues = before ++ .letter ⟨ticket, c.command⟩ now :: after ∧
    start.run (actions before) = .ok (events, s) ∧ c.command.reply? s = some reply

/-- **What a snapshot shows of a burst**: both have their places in the script, and of the
hearts that the burst released those are seen which are neither cancelled between the two nor
reach the end of their lives by an advance. -/
def Seen (start : Show) (cues : List Cue) (burst snapshot : Call) (origin : Point)
    (hearts : List Heart) : Prop :=
  ∃ ticket ticket' before now between now' after born,
    burst.ticket? = some ticket ∧ snapshot.ticket? = some ticket' ∧
    cues = before ++ .letter ⟨ticket, .burst origin⟩ now ::
      (between ++ .letter ⟨ticket', .snapshot⟩ now' :: after) ∧
    Released start (actions before) origin now born ∧
    born.length = start.effects.burst.count.toNat ∧
    ∀ b ∈ born, b.createdAt = now ∧ ((∃ g ∈ hearts, b.SameBirth g) ↔
      .cancel b.id ∉ actions between ∧
        ¬ Reached (actions between) (b.endAt start.effects.timing))

namespace Kept

variable {start : Show} {cues : List Cue}

/-- A letter is known by its ticket. -/
theorem eq_of_ticket (k : Kept start cues h) {l m : Letter} (hl : l ∈ h.taken)
    (hm : m ∈ h.taken) (same : l.ticket = m.ticket) : l = m :=
  List.inj_on_of_nodup_map k.nodup hl hm same

theorem mem_taken_of_handled (k : Kept start cues h) {l : Letter} (hl : l ∈ letters cues) :
    l ∈ h.taken :=
  (k.timely.trans (List.takeWhile_prefix _)).subset hl

/-- Letters that were not handled have no reply. -/
theorem lookup_of_unhandled (k : Kept start cues h) {l : Letter} (taken : l ∈ h.taken)
    (unhandled : l ∉ letters cues) : h.stage.replies.lookup l.ticket = none := by
  refine k.unreplied _ fun m hm same => unhandled ?_
  rwa [k.eq_of_ticket taken (k.mem_taken_of_handled hm) same.symm]

/-- **A request that is handled** is answered. -/
theorem answer_of_handled (k : Kept start cues h) (given : c.ticket? = some ticket)
    (asks : c.command.asks = true) (handled : ⟨ticket, c.command⟩ ∈ letters cues) :
    ∃ reply, h.result? c = some (.ok (some reply)) := by
  obtain ⟨before, now, after, split⟩ := Cue.exists_place handled
  obtain ⟨events, s, -, lookup⟩ := k.replied before _ now after split
  obtain ⟨reply, hreply⟩ := Command.exists_reply asks s
  exact ⟨reply, result_eq_reply_iff.2 ⟨ticket, given, asks, lookup.trans hreply⟩⟩

/-- **Any answer** is that of a plain show. -/
theorem answered (k : Kept start cues h) (hc : c ∈ h.calls)
    (got : h.result? c = some (.ok (some reply))) : Answered start cues c reply := by
  obtain ⟨ticket, given, -, lookup⟩ := result_eq_reply_iff.1 got
  have handled : ⟨ticket, c.command⟩ ∈ letters cues := by
    by_contra unhandled
    cases (k.lookup_of_unhandled (mem_taken hc given) unhandled).symm.trans lookup
  obtain ⟨before, now, after, split⟩ := Cue.exists_place handled
  obtain ⟨events, s, run, reply⟩ := k.replied before _ now after split
  exact ⟨ticket, before, now, after, events, s, given, split, run, reply.symm.trans lookup⟩

/-- A request that came in time is answered, unless the history is at fault. -/
theorem served (k : Kept start cues h) (enough : h.stage.mailbox.length ≤ works more)
    (given : c.ticket? = some ticket) (asks : c.command.asks = true)
    (timely : ⟨ticket, c.command⟩ ∈ h.inTime) :
    (∃ reply, (h.play more).result? c = some (.ok (some reply))) ∨
      (∃ fault, start.run (actions (cues ++ h.script more)) = .error fault) ∧
        (h.play more).result? c = some (.error {}) := by
  have k' := k.play more
  have taken := (h.taken_prefix more).subset ((List.takeWhile_prefix _).subset timely)
  by_cases handled : ⟨ticket, c.command⟩ ∈ letters (cues ++ h.script more)
  · exact Or.inl (k'.answer_of_handled given asks handled)
  · rcases k.handled enough with all | ⟨fault, bad⟩
    · exact absurd (all.subset timely) handled
    · refine Or.inr ⟨⟨fault, bad⟩, ?_⟩
      refine result_of_unreplied given asks (k'.lookup_of_unhandled taken handled) ?_
      -- the show of an open stage would not be at fault
      refine Stage.isOpen_eq_false_iff.2 (Option.eq_none_iff_forall_not_mem.2 fun s hs => ?_)
      obtain ⟨events, run⟩ := k'.shows s hs
      cases bad.symm.trans run

/-- A request behind a letter that closes the stage is refused. -/
theorem refused (k : Kept start cues h) (enough : h.stage.mailbox.length ≤ works more)
    (hc : c ∈ h.calls) (asks : c.command.asks = true)
    (late : ∀ ticket, c.ticket? = some ticket → ⟨ticket, c.command⟩ ∉ h.inTime) :
    (h.play more).result? c = some (.error {}) := by
  cases given : c.ticket? with
  | none => exact result_of_refused given
  | some ticket =>
      have taken := mem_taken hc given
      have unhandled : ⟨ticket, c.command⟩ ∉ letters (cues ++ h.script more) :=
        fun handled => late ticket given (k.mem_inTime_of_handled handled taken)
      refine result_of_unreplied given asks ((k.play more).lookup_of_unhandled
        ((h.taken_prefix more).subset taken) unhandled) ?_
      -- an open stage has handled all that was taken
      refine Bool.eq_false_iff.2 fun opened => unhandled ?_
      exact (k.taken_handled enough opened).subset taken

/-- What was taken in front of a letter at its place has been handled in front of it. -/
theorem handled_of_earlier (k : Kept start cues h) {before after : List Cue} {l m : Letter}
    {now : Int} (place : cues = before ++ .letter m now :: after)
    (earlier : [l, m].Sublist h.taken) : l ∈ letters before := by
  obtain ⟨rest, split⟩ := k.timely.trans (List.takeWhile_prefix _)
  rw [place, Cue.letters_append, Cue.letters_letter, List.append_assoc, List.cons_append] at split
  have nodup := List.Nodup.of_map _ k.nodup
  rw [← split] at nodup earlier
  obtain ⟨front, back, pair, hfront, hback⟩ := List.sublist_append_iff.1 earlier
  cases front with
  | nil =>
      -- both behind the first would be the same letter twice
      obtain rfl : [l, m] = back := pair
      have again : m ∈ letters after ++ rest := hback.tail.subset List.mem_cons_self
      exact absurd again (List.nodup_cons.1 (List.nodup_append.1 nodup).2.1).1
  | cons _ _ =>
      obtain ⟨rfl, -⟩ := List.cons.inj pair
      exact hfront.subset List.mem_cons_self

/-- **A snapshot shows a burst** that was acknowledged before it. -/
theorem seen (k : Kept start cues h) (steady : start.Steady) {burst snapshot : Call}
    {origin : Point} {hearts : List Heart} (earlier : [burst, snapshot].Sublist h.calls)
    (bursts : burst.command = .burst origin) (acknowledged : h.result? burst = some (.ok none))
    (got : h.result? snapshot = some (.ok (some (.hearts hearts))))
    (asked : snapshot.command = .snapshot) :
    Seen start cues burst snapshot origin hearts := by
  obtain ⟨ticket, given, -⟩ := ticket_of_acknowledged acknowledged
  obtain ⟨ticket', front, now', after, events, s, given', place, run, reply⟩ :=
    k.answered (earlier.subset (List.mem_cons_of_mem _ List.mem_cons_self)) got
  rw [asked] at place reply
  obtain rfl : s.snapshot = hearts := Reply.hearts.inj (Option.some.inj reply)
  have pair : [⟨ticket, .burst origin⟩, ⟨ticket', .snapshot⟩].Sublist h.taken := by
    have taken : List.Sublist _ h.taken := earlier.filterMap Call.letter?
    simpa [Call.letter?, given, given', bursts, asked] using taken
  obtain ⟨before, now, between, rfl⟩ := Cue.exists_place (k.handled_of_earlier place pair)
  rw [Cue.actions_append] at run
  obtain ⟨born, released, length, fates⟩ := Show.fates_of_burst steady run
  refine ⟨ticket, ticket', before, now, between, now', after, born, given, given', ?_, released,
    length, fun b hb => ⟨(fates b hb).1, ?_⟩⟩
  · rw [place, List.append_assoc]
    rfl
  · have fate := (fates b hb).2
    refine Iff.trans ?_ fate.live_iff
    constructor
    · rintro ⟨g, hg, same⟩
      by_contra gone
      exact Show.get?_eq_none_iff.1 (Option.not_isSome_iff_eq_none.1 gone) g hg same.id
    · intro live
      obtain ⟨g, found⟩ := Option.isSome_iff_exists.1 live
      exact ⟨g, (Show.mem_of_get? found).1, fate.birth g found⟩

end Kept

/-! ### One order -/

/-- **What all clients of a house see**: that it does one thing after another, in one order of
their letters.  The calls are those of a house and of another that a play has led to. -/
structure Linear (start : Show) (cues : List Cue) (h h' : House) : Prop where
  /-- Each client's letters stand in the order of its calls, -/
  order : ∀ client, ((h'.calls.filter fun c => c.client = client).filterMap Call.letter?).Sublist
    h'.taken
  /-- no letter twice, -/
  nodup : h'.taken.Nodup
  /-- and they are handled in this order, up to the first that closes the stage. -/
  handled : letters cues <+: h'.inTime
  /-- A request that came in time is answered, unless a plain show would be at fault. -/
  served : ∀ c ∈ h.calls, c.command.asks = true →
    (∃ ticket, c.ticket? = some ticket ∧ ⟨ticket, c.command⟩ ∈ h.inTime) →
    (∃ reply, h'.result? c = some (.ok (some reply))) ∨
      (∃ fault, start.run (actions cues) = .error fault) ∧ h'.result? c = some (.error {})
  /-- All answers are those of a plain show. -/
  answered : ∀ c ∈ h'.calls, ∀ reply, h'.result? c = some (.ok (some reply)) →
    Answered start cues c reply
  /-- A snapshot shows each burst that was acknowledged before. -/
  seen : ∀ burst snapshot origin hearts, [burst, snapshot].Sublist h'.calls →
    burst.command = .burst origin → h'.result? burst = some (.ok none) →
    h'.result? snapshot = some (.ok (some (.hearts hearts))) → snapshot.command = .snapshot →
    Seen start cues burst snapshot origin hearts
  /-- A request that did not come in time is refused, -/
  refused : ∀ c ∈ h.calls, c.command.asks = true →
    (∀ ticket, c.ticket? = some ticket → ⟨ticket, c.command⟩ ∉ h.inTime) →
    h'.result? c = some (.error {})
  /-- and so is every call at a closed stage, whatever it asks for. -/
  gone : h'.stage.isOpen = false → ∀ later, ∃ late, (h'.play later).calls = h'.calls ++ late ∧
    ∀ c ∈ late, (h'.play later).result? c = some (.error {})

/-- **Every play is linear**, once the stage has worked as often as letters were waiting. -/
theorem linear_of_play {effects : Effects} {source : WordSource} {clock : Clock}
    {moves more : List Move}
    (enough : ((start effects source clock).play moves).stage.mailbox.length ≤ works more) :
    Linear (Show.new effects source) ((start effects source clock).script (moves ++ more))
      ((start effects source clock).play moves)
      ((start effects source clock).play (moves ++ more)) := by
  have k := kept_play effects source clock moves
  have k' := kept_play effects source clock (moves ++ more)
  refine {
    order := fun client => List.filter_sublist.filterMap _
    nodup := List.Nodup.of_map _ k'.nodup
    handled := k'.timely
    served := ?_
    answered := fun c hc reply => k'.answered hc
    seen := fun burst snapshot origin hearts => k'.seen (Show.steady_new effects source)
    refused := ?_
    gone := ?_ }
  · rintro c hc asks ⟨ticket, given, timely⟩
    rw [script_append, play_append]
    exact k.served enough given asks timely
  · intro c hc asks late
    rw [play_append]
    exact k.refused enough hc asks late
  · intro closed later
    obtain ⟨late, calls, refused⟩ :=
      calls_play_of_closed (Stage.isOpen_eq_false_iff.1 closed) later
    exact ⟨late, calls, fun c hc => result_of_refused (refused c hc)⟩

/-- A client sees another's burst, and is refused behind the other's last call. -/
theorem linear_of_two_clients :
    (∃ hearts, ((start Show.single ⟨[0], 0⟩ {}).play [.share 0 1, .call 0 (.burst ⟨3.0, 4.0⟩),
        .call 1 .snapshot, .call 0 .shutdown, .call 1 .snapshot, .work, .work, .work,
        .work]).result? ⟨1, .snapshot, some 1⟩ = some (.ok (some (.hearts hearts))) ∧
      Seen (Show.new Show.single ⟨[0], 0⟩) ((start Show.single ⟨[0], 0⟩ {}).script [.share 0 1,
        .call 0 (.burst ⟨3.0, 4.0⟩), .call 1 .snapshot, .call 0 .shutdown, .call 1 .snapshot,
        .work, .work, .work, .work]) ⟨0, .burst ⟨3.0, 4.0⟩, some 0⟩ ⟨1, .snapshot, some 1⟩
        ⟨3.0, 4.0⟩ hearts) ∧
    ((start Show.single ⟨[0], 0⟩ {}).play [.share 0 1, .call 0 (.burst ⟨3.0, 4.0⟩),
        .call 1 .snapshot, .call 0 .shutdown, .call 1 .snapshot, .work, .work, .work,
        .work]).result? ⟨1, .snapshot, some 3⟩ = some (.error {}) := by
  have linear := @linear_of_play Show.single ⟨[0], 0⟩ {} [.share 0 1,
    .call 0 (.burst ⟨3.0, 4.0⟩), .call 1 .snapshot, .call 0 .shutdown, .call 1 .snapshot]
    [.work, .work, .work, .work] (by decide)
  constructor
  · exact ⟨_, rfl, linear.seen _ _ _ _ (by decide) rfl rfl rfl rfl⟩
  · refine linear.refused _ (by decide) rfl fun ticket given => ?_
    cases given
    decide

end House

end HeartKeypad
