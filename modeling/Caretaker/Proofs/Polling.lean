import Mathlib.Algebra.Order.Floor.Div
import Caretaker.Proofs.Attempts

/-!
# Waits that look again and again

A wait for a container to start or to be gone looks at it until a look decides, or ends at the
deadline or after it.  Between two looks there is an interval, and a look takes as long as the
engine does.  A look that ends at the deadline still counts, so every wait looks at least once.

Main definitions:

- `startVerdict`, `pruneVerdict`: what a look decides.
- `Scripted.Waited`: how a wait went that looked at a container up to some look.

Main statements:

- `Scripted.waited_poll`: a wait goes on up to the first look that decides or is late.
- `waits_up_to_deciding_look`: both waits, with a bound on their looks.
-/

namespace Caretaker.Engine

open Container (Call Fault)
open Script

/-! ## What a look decides -/

/-- What a look says of a start, if it decides anything. -/
def startVerdict (id : String) (outcome : Outcome) : Option (Except Fault Unit) :=
  match outcome.read (Answer.container? id) with
  | .ok container => if container.state = .running then some (.ok ()) else none
  | .error fault =>
    some (.error (if fault.status? = some notThere then .notFound id else .engine fault))

/-- What a look says of a removal, if it decides anything. -/
def pruneVerdict (id : String) (outcome : Outcome) : Option (Except Fault Unit) :=
  match outcome.read (Answer.container? id) with
  | .ok _ => none
  | .error fault => some (if fault.status? = some notThere then .ok () else .error (.engine fault))

/-- What is seen by a look. -/
def seen (id : String) (outcome : Outcome) : Except Fault ContainerInfo :=
  orMissing (.error (.notFound id)) (outcome.read (Answer.container? id))

/-- What a condition comes to for a wait. -/
def settled : Except Fault Bool → Option (Except Fault Unit)
  | .ok true => some (.ok ())
  | .ok false => none
  | .error fault => some (.error fault)

section Verdict

variable {id : String} {outcome : Outcome}

theorem settled_isRunning : settled (isRunning (seen id outcome)) = startVerdict id outcome := by
  unfold seen startVerdict
  cases outcome.read (Answer.container? id) with
  | ok container =>
    by_cases hstate : container.state = .running <;>
      simp [orMissing, isRunning, settled, Except.map, hstate]
  | error fault =>
    by_cases hstatus : fault.status? = some notThere <;>
      simp [orMissing, isRunning, settled, Except.map, hstatus]

theorem settled_isGone : settled (isGone (seen id outcome)) = pruneVerdict id outcome := by
  unfold seen pruneVerdict
  cases outcome.read (Answer.container? id) with
  | ok container => rfl
  | error fault =>
    by_cases hstatus : fault.status? = some notThere <;>
      simp [orMissing, isGone, settled, hstatus]

/-- Nothing but the status of something that is not there says that a container is gone. -/
theorem isMissing_of_pruneVerdict (h : pruneVerdict id outcome = some (.ok ())) :
    outcome.IsMissing := by
  unfold pruneVerdict at h
  split at h
  · cases h
  · next fault hread =>
    split at h
    · next hstatus => exact Outcome.isMissing_of_read hread hstatus
    · cases h

end Verdict

/-! ## Looks -/

namespace Scripted

/-- The `n`th look at a container, when nothing else is asked for. -/
def look (e : Scripted) (id : String) (n : Nat) : Sent :=
  ⟨.inspect id, requestLimit, e.ends n requestLimit⟩

/-- When the `n`th look ends, if there is an interval before each but the first. -/
def lookEnd (e : Scripted) : Nat → Nat
  | 0 => e.clock + e.takes 0 requestLimit
  | n + 1 => e.lookEnd n + e.timing.interval + e.takes (n + 1) requestLimit

/-- How a wait with a deadline went whose last look was the one of number `last`. -/
structure Waited (e : Scripted) (id condition : String)
    (verdict : Outcome → Option (Except Fault Unit)) (deadline last : Nat)
    (result : Except Fault Unit) (e' : Scripted) : Prop where
  /-- No look before the last one decided anything. -/
  undecided : ∀ n < last, verdict (e.ends n requestLimit) = none
  /-- They all ended before the deadline. -/
  early : ∀ n < last, e.lookEnd n < deadline
  /-- If the last one decided nothing either, it was late. -/
  late : verdict (e.ends last requestLimit) = none → deadline ≤ e.lookEnd last
  result : result = (verdict (e.ends last requestLimit)).getD (.error (.timeout id condition))
  tried : e.Tried ((List.range (last + 1)).map (e.look id)) e'
  clock : e'.clock = e.lookEnd last

/-- An engine after a look and the interval behind it. -/
def lookedAt (e : Scripted) (id : String) : Scripted :=
  let e' := (e.send (.inspect id) requestLimit).2
  { e' with clock := e'.clock + e.timing.interval }

section Step

variable (e : Scripted) (id : String)

theorem clock_look : (e.send (.inspect id) requestLimit).2.clock = e.lookEnd 0 :=
  clock_send e _ _

theorem reaction_lookedAt (n : Nat) : (e.lookedAt id).reaction n = e.reaction (n + 1) :=
  reaction_send e _ _ n

theorem ends_lookedAt (n limit : Nat) : (e.lookedAt id).ends n limit = e.ends (n + 1) limit := by
  rw [ends, reaction_lookedAt, ends]

theorem takes_lookedAt (n limit : Nat) : (e.lookedAt id).takes n limit = e.takes (n + 1) limit := by
  rw [takes, reaction_lookedAt, takes]

theorem timing_lookedAt : (e.lookedAt id).timing = e.timing := timing_send e _ _

theorem clock_lookedAt : (e.lookedAt id).clock = e.lookEnd 0 + e.timing.interval :=
  congrArg (· + e.timing.interval) (clock_look e id)

theorem lookEnd_lookedAt (n : Nat) : (e.lookedAt id).lookEnd n = e.lookEnd (n + 1) := by
  induction n with
  | zero => rw [lookEnd, clock_lookedAt, takes_lookedAt]; rfl
  | succ n ih => rw [lookEnd, ih, timing_lookedAt, takes_lookedAt]; rfl

theorem look_lookedAt (n : Nat) : (e.lookedAt id).look id n = e.look id (n + 1) := by
  rw [look, look, ends_lookedAt]

/-- The looks up to some number, the first one apart. -/
theorem map_look_succ (last : Nat) :
    (List.range (last + 2)).map (e.look id) =
      [e.look id 0] ++ (List.range (last + 1)).map ((e.lookedAt id).look id) := by
  rw [List.range_succ_eq_map, List.map_cons, List.map_map]
  refine congrArg (e.look id 0 :: ·) (List.map_congr_left fun n _ => ?_)
  exact (look_lookedAt e id n).symm

theorem tried_look : e.Tried [e.look id 0] (e.send (.inspect id) requestLimit).2 := by
  have h := tried_send e (.inspect id) requestLimit
  rw [send_outcome] at h
  exact h

end Step

section Waited

variable {e : Scripted} {id condition : String} {verdict : Outcome → Option (Except Fault Unit)}
  {deadline last : Nat} {result : Except Fault Unit} {e' : Scripted}

/-- The first look is the last one if it decides or is late. -/
theorem waited_once {decided : Option (Except Fault Unit)}
    (hverdict : verdict (e.ends 0 requestLimit) = decided)
    (hlate : decided = none → deadline ≤ e.lookEnd 0) :
    Waited e id condition verdict deadline 0 (decided.getD (.error (.timeout id condition)))
      (e.send (.inspect id) requestLimit).2 where
  undecided n hn := absurd hn (Nat.not_lt_zero n)
  early n hn := absurd hn (Nat.not_lt_zero n)
  late h := hlate (hverdict.symm.trans h)
  result := by rw [hverdict]
  tried := tried_look e id
  clock := clock_look e id

/-- Otherwise the wait goes on behind it. -/
theorem Waited.later (h : Waited (e.lookedAt id) id condition verdict deadline last result e')
    (hundecided : verdict (e.ends 0 requestLimit) = none) (hearly : e.lookEnd 0 < deadline) :
    Waited e id condition verdict deadline (last + 1) result e' where
  undecided
    | 0, _ => hundecided
    | n + 1, hn => by
      rw [← ends_lookedAt e id]
      exact h.undecided n (Nat.lt_of_succ_lt_succ hn)
  early
    | 0, _ => hearly
    | n + 1, hn => by
      rw [← lookEnd_lookedAt e id]
      exact h.early n (Nat.lt_of_succ_lt_succ hn)
  late := by
    rw [← ends_lookedAt e id, ← lookEnd_lookedAt e id]
    exact h.late
  result := by
    rw [← ends_lookedAt e id]
    exact h.result
  tried := by
    have hlook : e.Tried [e.look id 0] (e.lookedAt id) := (tried_look e id).quiet rfl rfl rfl
    rw [map_look_succ]
    exact hlook.trans h.tried
  clock := by
    rw [← lookEnd_lookedAt e id]
    exact h.clock

end Waited

/-! ## Waits -/

theorem run_inspect (id : String) :
    (inspect id).run = seen id <$> Engine.send (.inspect id) requestLimit := by
  rw [inspect, run_orOn, ask_eq_map, Functor.map_map]
  rfl

section Poll

variable (id condition : String) (decide : Except Fault ContainerInfo → Except Fault Bool)
  (deadline : Nat)

/-- A look, and what comes of it. -/
theorem run_poll (looks : Nat) (e : Scripted) :
    (poll e.timing id condition decide deadline (looks + 1)).run.run (S := signature) answer e =
      match settled (decide (seen id (e.ends 0 requestLimit))) with
      | some result => (result, (e.send (.inspect id) requestLimit).2)
      | none =>
        if deadline ≤ e.lookEnd 0 then
          (.error (.timeout id condition), (e.send (.inspect id) requestLimit).2)
        else
          (poll (e.lookedAt id).timing id condition decide deadline looks).run.run (S := signature)
            answer (e.lookedAt id) := by
  have hlook : ((inspect id).run).run (S := signature) answer e =
      (seen id (e.ends 0 requestLimit), (e.send (.inspect id) requestLimit).2) := by
    rw [run_inspect, ← send_outcome e (.inspect id) requestLimit]
    rfl
  rw [poll, ExceptT.run_bind, ExceptT.run_lift, Script.run_bind, map_eq_pure_bind, Script.run_bind,
    hlook]
  show Script.run (S := signature) answer (ExceptT.run (_ >>= _)) _ = _
  rw [ExceptT.run_bind]
  -- The time is asked for only where the look decided nothing.
  cases hdecision : decide (seen id (e.ends 0 requestLimit)) with
  | error fault => rfl
  | ok isDecided =>
    cases isDecided with
    | true => rfl
    | false =>
    show Script.run (S := signature) answer (ExceptT.run (_ >>= _)) _ = _
    rw [ExceptT.run_bind, ExceptT.run_lift, Script.run_bind]
    rw [← clock_look e id]
    show Script.run (S := signature) answer
      (ExceptT.run (if deadline ≤ (e.send (.inspect id) requestLimit).2.clock then _ else _)) _ = _
    by_cases hlate : deadline ≤ (e.send (.inspect id) requestLimit).2.clock
    · rw [if_pos hlate]
      exact (if_pos hlate).symm
    · rw [if_neg hlate, timing_lookedAt]
      exact (if_neg hlate).symm

/-- A wait is over with its first look, or goes on behind it. -/
theorem waited_or_later (looks : Nat) (e : Scripted) :
    let verdict := fun outcome => settled (decide (seen id outcome))
    let after := (poll e.timing id condition decide deadline (looks + 1)).run.run (S := signature)
      answer e
    Waited e id condition verdict deadline 0 after.1 after.2 ∨
      verdict (e.ends 0 requestLimit) = none ∧ e.lookEnd 0 < deadline ∧
        after = (poll (e.lookedAt id).timing id condition decide deadline looks).run.run
          (S := signature) answer (e.lookedAt id) := by
  intro verdict after
  have hafter : after = _ := run_poll id condition decide deadline looks e
  cases hverdict : settled (decide (seen id (e.ends 0 requestLimit))) with
  | some result =>
    rw [hverdict] at hafter
    rw [hafter]
    exact .inl (@waited_once e id condition verdict deadline (some result) hverdict nofun)
  | none =>
    rw [hverdict] at hafter
    by_cases hlate : deadline ≤ e.lookEnd 0
    · rw [hafter, if_pos hlate]
      exact .inl (@waited_once e id condition verdict deadline none hverdict fun _ => hlate)
    · exact .inr ⟨hverdict, Nat.lt_of_not_le hlate, hafter.trans (if_neg hlate)⟩

/-- A wait goes on up to the first look that decides or is late.  If there is room for a look after
each interval up to the deadline, that is one of its looks. -/
theorem waited_poll (looks : Nat) (e : Scripted)
    (hlooks : deadline ≤ e.clock + looks * e.timing.interval) :
    let after := (poll e.timing id condition decide deadline (looks + 1)).run.run (S := signature)
      answer e
    ∃ last ≤ looks, Waited e id condition (fun outcome => settled (decide (seen id outcome)))
      deadline last after.1 after.2 := by
  intro after
  have hclock : e.clock ≤ e.lookEnd 0 := Nat.le_add_right _ _
  -- Each interval brings the deadline nearer by its whole length, however long the look before it
  -- took.  So the looks that are left always reach it, and none is left only behind the deadline.
  induction looks generalizing e with
  | zero =>
    obtain hwaited | ⟨-, hearly, -⟩ := waited_or_later id condition decide deadline 0 e
    · exact ⟨0, Nat.le_refl 0, hwaited⟩
    · omega
  | succ looks ih =>
    obtain hwaited | ⟨hundecided, hearly, hafter⟩ :=
      waited_or_later id condition decide deadline (looks + 1) e
    · exact ⟨0, Nat.zero_le _, hwaited⟩
    · have hroom : deadline ≤ (e.lookedAt id).clock + looks * (e.lookedAt id).timing.interval := by
        rw [clock_lookedAt, timing_lookedAt]
        rw [Nat.succ_mul] at hlooks
        omega
      obtain ⟨last, hlast, hwaited⟩ := ih (e.lookedAt id) hroom (Nat.le_add_right _ _)
      rw [← hafter] at hwaited
      exact ⟨last + 1, Nat.succ_le_succ hlast, hwaited.later hundecided hearly⟩

end Poll

/-- A wait begins with the time that it has. -/
theorem waited_waitUntil (id condition : String)
    (decide : Except Fault ContainerInfo → Except Fault Bool) (e : Scripted)
    (hinterval : 0 < e.timing.interval) :
    let after := (waitUntil e.timing id condition decide).run.run (S := signature) answer e
    ∃ last ≤ e.timing.limit ⌈/⌉ e.timing.interval,
      Waited e id condition (fun outcome => settled (decide (seen id outcome)))
        (e.clock + e.timing.limit) last after.1 after.2 := by
  have hlooks : e.clock + e.timing.limit ≤
      e.clock + (e.timing.limit ⌈/⌉ e.timing.interval) * e.timing.interval := by
    have hceil := le_smul_ceilDiv (b := e.timing.limit) hinterval
    rw [smul_eq_mul, Nat.mul_comm] at hceil
    exact Nat.add_le_add_left hceil _
  exact waited_poll id condition decide _ _ e hlooks

theorem lookEnd_events (e : Scripted) (events : List Event) (n : Nat) :
    { e with events }.lookEnd n = e.lookEnd n := by
  induction n with
  | zero => rfl
  | succ n ih => exact congrArg (· + e.timing.interval + e.takes (n + 1) requestLimit) ih

/-- The log is no part of a wait. -/
theorem Waited.quiet {e e' : Scripted} {id condition : String}
    {verdict : Outcome → Option (Except Fault Unit)} {deadline last : Nat}
    {result : Except Fault Unit} {events events' : List Event}
    (h : Waited { e with events } id condition verdict deadline last result e') :
    Waited e id condition verdict deadline last result { e' with events := events' } where
  undecided := h.undecided
  early n hn := by
    rw [← lookEnd_events e events]
    exact h.early n hn
  late := by
    rw [← lookEnd_events e events]
    exact h.late
  result := h.result
  tried := by
    have hstart : Tried e [] { e with events } := (Tried.refl e).quiet rfl rfl rfl
    exact (hstart.trans h.tried).quiet rfl rfl rfl
  clock := by
    rw [← lookEnd_events e events]
    exact h.clock

end Scripted

/-- A wait for a start and a wait for a removal end after so many looks as there are intervals up to
the deadline, and one more, or before.  Each goes on up to the first look that decides or ends at
the deadline or after it, and its result is what that look decides; if it decides nothing, the wait
is out of time.  A container is gone only if the last look says that it is not there. -/
theorem waits_up_to_deciding_look (e : Scripted) (id : String) (hinterval : 0 < e.timing.interval) :
    let started := Scripted.perform (.awaitStart id) e
    let pruned := Scripted.perform (.awaitPrune id) e
    let deadline := e.clock + e.timing.limit
    (∃ last ≤ e.timing.limit ⌈/⌉ e.timing.interval,
      e.Waited id "start" (startVerdict id) deadline last started.answer started.state) ∧
    ∃ last ≤ e.timing.limit ⌈/⌉ e.timing.interval,
      e.Waited id "be pruned" (pruneVerdict id) deadline last pruned.answer pruned.state ∧
      (pruned.answer = .ok () → (e.ends last requestLimit).IsMissing) := by
  intro started pruned deadline
  obtain ⟨last, hlast, hwaited⟩ :=
    Scripted.waited_waitUntil id "start" isRunning { e with events := [] } hinterval
  obtain ⟨last', hlast', hwaited'⟩ :=
    Scripted.waited_waitUntil id "be pruned" isGone { e with events := [] } hinterval
  simp only [settled_isRunning] at hwaited
  simp only [settled_isGone] at hwaited'
  have hpruned : e.Waited id "be pruned" (pruneVerdict id) deadline last' pruned.answer
    pruned.state := hwaited'.quiet
  refine ⟨⟨last, hlast, hwaited.quiet⟩, last', hlast', hpruned, fun hok => ?_⟩
  have hresult := hpruned.result
  rw [hok] at hresult
  cases hverdict : pruneVerdict id (e.ends last' requestLimit) with
  | none =>
    rw [hverdict] at hresult
    cases hresult
  | some result =>
    rw [hverdict] at hresult
    have hgone : result = .ok () := hresult.symm
    rw [hgone] at hverdict
    exact isMissing_of_pruneVerdict hverdict

namespace Sample

/-- An engine on which a container starts late.  Its time is two intervals. -/
def slow : Scripted where
  timing := ⟨1000, 500⟩
  reactions :=
    [.answering 200 "\x7b\x7d", .answering 200 "\x7b\"State\":\x7b\"Status\":\"created\"\x7d\x7d",
      .answering 200 "\x7b\"State\":\x7b\"Status\":\"running\"\x7d\x7d"]

end Sample

/-- A look that ends at the deadline shows that the container runs, and so that it is not gone. -/
theorem waits_up_to_deciding_look_slow :
    let e := Sample.slow
    let started := Scripted.perform (.awaitStart "c") e
    let pruned := Scripted.perform (.awaitPrune "c") e
    let deadline := e.clock + e.timing.limit
    0 < e.timing.interval ∧
      started.answer = .ok () ∧ started.state.clock = deadline ∧
      pruned.answer = .error (.timeout "c" "be pruned") ∧
      (∃ last ≤ e.timing.limit ⌈/⌉ e.timing.interval,
        e.Waited "c" "start" (startVerdict "c") deadline last started.answer started.state) ∧
      ∃ last ≤ e.timing.limit ⌈/⌉ e.timing.interval,
        e.Waited "c" "be pruned" (pruneVerdict "c") deadline last pruned.answer pruned.state ∧
        (pruned.answer = .ok () → (e.ends last requestLimit).IsMissing) :=
  ⟨Nat.succ_pos _, by decide +kernel, by decide +kernel, by decide +kernel,
    waits_up_to_deciding_look Sample.slow "c" (Nat.succ_pos _)⟩

end Caretaker.Engine
