import Caretaker.Proofs.Commute
import Caretaker.Proofs.Session

/-!
# Chronicles

Operations that are under way at once mix in any way the lock allows.  A chronicle is a session that
also keeps book: in which order operations asked for the lock, what each ended with, and who made
which call.  One move of it begins an operation, lets one go on by a request, or holds back other
calls than before.

The book is there to be compared with another one: the operations run one after the other, in the
order in which they asked for the lock.

Main definitions:

- `Chronicle.step`, `Chronicle.run`: what moves do.
- `serially`: operations one after the other.

Main statements:

- `Chronicle.toSession_step`: a move of a chronicle is a step of its session.
-/

namespace Caretaker.Crew

open Container (Memory)
open Script

/-- The call of a request, if it is one. -/
def Request.call? : Request → Option Container.Call
  | .call c => some c
  | _ => none

/-- Whether a request waits for the lock. -/
def Request.waits : Request → Bool
  | .lock _ => true
  | _ => false

/-- A session on containers in memory that keeps book. -/
structure Chronicle extends Session Memory where
  /-- The operations that asked for the lock, the first one first. -/
  asked : List (Nat × Operation) := []
  /-- What operations ended with, by number. -/
  ended : List (Nat × Result) := []
  /-- Who made which call, the first one first. -/
  calls : List (Nat × Container.Call) := []

/-- What can happen next. -/
inductive Move where
  /-- Somebody begins an operation. -/
  | begins (who : Nat) (op : Operation)
  /-- Somebody makes the next request of its operation. -/
  | goesOn (who : Nat)
  /-- Other calls are held back than before. -/
  | gates (gated : List Container.Operation)

namespace Chronicle

/-- A crew in any state, at the beginning of a chronicle. -/
def start (w : World Memory) : Chronicle := { world := { w with lock := {} } }

/-- Notes that somebody asked for the lock, the first time that it does. -/
def noteAsked (who : Nat) (op : Operation) (r : Request) (s : Chronicle) : Chronicle :=
  if r.waits && !s.asked.any (·.1 = who) then { s with asked := s.asked ++ [(who, op)] } else s

/-- Makes a request. -/
def attempt (who : Nat) (op : Operation) (r : Request) (next : r.Answer → Transaction Result)
    (s : Chronicle) : Chronicle :=
  match s.world.attempt who r with
  | (none, w) => { s with world := w }
  | (some answer, w) =>
    { toSession := s.toSession.goOn who op (next answer) w
      asked := s.asked
      ended :=
        match next answer with
        | Script.done result => (who, result) :: s.ended
        | Script.ask _ _ => s.ended
      calls := s.calls ++ (r.call?.map fun c => (who, c)).toList }

/-- What a move does; one that is not possible does nothing.  Numbers are not used again, and an
operation that never waits for the lock is not part of a chronicle. -/
def step (settings : Settings) (s : Chronicle) : Move → Chronicle
  | .begins who op =>
    if op.access.isSome && (s.underway who).isNone && !s.asked.any (·.1 = who) then
      { s with
        underway := Function.update s.underway who (some ⟨op, op.transaction settings⟩) }
    else s
  | .goesOn who =>
    match s.underway who with
    | some ⟨op, Script.ask r next⟩ => (s.noteAsked who op r).attempt who op r next
    | _ => s
  | .gates gated => { s with world := { s.world with gated } }

section Sessions

variable {s : Chronicle} {who : Nat} {op : Operation} {r : Request}
  {next : r.Answer → Transaction Result} {w : World Memory}

theorem toSession_attempt_of_waits (h : s.world.attempt who r = (none, w)) :
    (s.attempt who op r next).toSession = { s.toSession with world := w } := by
  unfold attempt
  rw [h]

theorem toSession_attempt_of_answer {answer : r.Answer}
    (h : s.world.attempt who r = (some answer, w)) :
    (s.attempt who op r next).toSession = s.toSession.goOn who op (next answer) w := by
  unfold attempt
  rw [h]

end Sessions

/-- A chronicle is a session: a move is one of its steps, or does nothing to it. -/
theorem toSession_step (settings : Settings) (s : Chronicle) (move : Move) :
    (s.step settings move).toSession = s.toSession ∨
      Session.Step settings (fun _ _ => False) s.toSession (s.step settings move).toSession := by
  cases move with
  | begins who op =>
    simp only [step]
    split
    · next hnew =>
      obtain ⟨⟨-, hfree⟩, -⟩ := by simpa only [Bool.and_eq_true] using hnew
      exact .inr (.begins who op (Option.isNone_iff_eq_none.1 hfree))
    · exact .inl rfl
  | goesOn who =>
    rcases hwho : s.underway who with _ | ⟨op, result | ⟨r, next⟩⟩
    · exact .inl (by simp only [step, hwho])
    · exact .inl (by simp only [step, hwho])
    · have hstep : s.step settings (.goesOn who) =
          (s.noteAsked who op r).attempt who op r next := by
        simp only [step, hwho]
      -- What is noted is no part of the session.
      have hnoted : (s.noteAsked who op r).toSession = s.toSession := by
        unfold noteAsked
        split <;> rfl
      refine .inr ?_
      rw [hstep]
      rcases hattempt : s.world.attempt who r with ⟨_ | answer, w⟩
      · rw [toSession_attempt_of_waits (by rw [hnoted]; exact hattempt), hnoted]
        exact .waits who op r next w hwho hattempt
      · rw [toSession_attempt_of_answer (by rw [hnoted]; exact hattempt), hnoted]
        exact .answers who op r next answer w hwho hattempt
  | gates gated => exact .inr (.gates gated)

/-! ## Requests -/

section Requests

variable {settings : Settings} {s : Chronicle} {who : Nat} {op : Operation} {r : Request}
  {next : r.Answer → Transaction Result} {w : World Memory}

theorem noteAsked_of_new {access : Access} (h : who ∉ s.asked.map (·.1)) :
    s.noteAsked who op (.lock access) = { s with asked := s.asked ++ [(who, op)] } := by
  have hnew : s.asked.any (·.1 = who) = false := by
    rw [List.any_eq_false]
    intro e hmem heq
    exact h (List.mem_map.2 ⟨e, hmem, of_decide_eq_true heq⟩)
  simp [noteAsked, Request.waits, hnew]

theorem noteAsked_of_mem (h : who ∈ s.asked.map (·.1)) : s.noteAsked who op r = s := by
  have hold : s.asked.any (·.1 = who) = true := by
    obtain ⟨e, hmem, heq⟩ := List.mem_map.1 h
    exact List.any_eq_true.2 ⟨e, hmem, decide_eq_true heq⟩
  simp [noteAsked, hold]

theorem asked_noteAsked : s.asked ⊆ (s.noteAsked who op r).asked := by
  unfold noteAsked
  split
  · exact List.subset_append_left _ _
  · exact List.Subset.refl _

@[simp] theorem asked_attempt : (s.attempt who op r next).asked = s.asked := by
  unfold attempt
  split <;> rfl

theorem attempt_of_waits (h : s.world.attempt who r = (none, w)) :
    s.attempt who op r next = { s with world := w } := by
  unfold attempt
  rw [h]

/-- Work under the lock goes on by an answer. -/
theorem attempt_of_answer {answer : r.Answer} {body : Transaction Result}
    (h : s.world.attempt who r = (some answer, w)) (hnext : next answer = thenUnlock body) :
    s.attempt who op r next =
      { s with
        world := w
        underway := Function.update s.underway who (some ⟨op, thenUnlock body⟩)
        calls := s.calls ++ (r.call?.map fun c => (who, c)).toList } := by
  unfold attempt
  rw [h]
  simp only [hnext, Session.goOn_thenUnlock]
  cases body <;> rfl

/-- An operation ends when it gives the lock back. -/
theorem attempt_unlock (result : Result) :
    s.attempt who op .unlock (fun _ => .done result) =
      { s with
        world := { s.world with lock := s.world.lock.release who }
        underway := Function.update s.underway who none
        ledger := (op, result) :: s.ledger
        ended := (who, result) :: s.ended } := by
  simp [attempt, World.attempt, Request.call?]

end Requests

/-- What moves do one after the other. -/
def run (settings : Settings) (moves : List Move) (s : Chronicle) : Chronicle :=
  moves.foldl (step settings) s

end Chronicle

/-- Operations one after the other: what each ends with, and the world after them. -/
def serially (settings : Settings) : List (Nat × Operation) → World Memory →
    List (Nat × Result) × World Memory
  | [], w => ([], w)
  | (who, op) :: ops, w =>
    let (result, w) := (op.transaction settings).run w
    let (results, w) := serially settings ops w
    ((who, result) :: results, w)

end Caretaker.Crew
