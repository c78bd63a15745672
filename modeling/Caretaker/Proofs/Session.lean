import Mathlib.Logic.Function.Basic
import Caretaker.Proofs.Work

/-!
# Sessions

A crew is used by many tasks at once.  A session is a crew with the operations under way and a
ledger of those that ended; one step answers one request of one operation, so that operations mix in
any way the lock allows.  Between the steps the backend moves on its own, as far as the `outside`
lets it.

Main statements:

- `attempt_waits`, `answer_tends`: what requests leave alone.
-/

namespace Caretaker.Crew

open Container (Backend)
open Script

/-- An operation under way, with what it still does. -/
structure Pending where
  operation : Operation
  rest : Transaction Result

/-- A crew with the operations on it. -/
structure Session (ρ : Type) where
  world : World ρ
  /-- The operations under way, by number. -/
  underway : Nat → Option Pending := fun _ => none
  /-- The operations that ended, the last one first. -/
  ledger : List (Operation × Result) := []

namespace Session

variable {ρ : Type}

/-- The turns of all updates that ended, the last one first. -/
def turns (s : Session ρ) : List Turn :=
  s.ledger.flatMap fun (op, result) => (op.turns result).reverse

theorem turns_of_ledger {s s' : Session ρ} {op : Operation} {result : Result}
    (h : s'.ledger = (op, result) :: s.ledger) :
    s'.turns = (op.turns result).reverse ++ s.turns := by
  unfold turns
  rw [h]
  rfl

/-- A session in which the operation of a number goes on with `rest` in a world: when nothing is
left it is entered in the ledger. -/
def goOn (who : Nat) (op : Operation) (rest : Transaction Result) (w : World ρ) (s : Session ρ) :
    Session ρ :=
  match rest with
  | .done result =>
    { world := w, underway := Function.update s.underway who none
      ledger := (op, result) :: s.ledger }
  | Script.ask r next =>
    { s with
      world := w
      underway := Function.update s.underway who
        (some ⟨op, Script.ask (S := signature) r next⟩) }

section GoOn

variable {who : Nat} {op : Operation} {w : World ρ} {s : Session ρ}

@[simp] theorem goOn_done (result : Result) :
    s.goOn who op (.done result) w =
      { world := w, underway := Function.update s.underway who none
        ledger := (op, result) :: s.ledger } := rfl

@[simp] theorem world_goOn (rest : Transaction Result) : (s.goOn who op rest w).world = w := by
  cases rest <;> rfl

theorem underway_goOn_of_ne {other : Nat} (hne : other ≠ who) (rest : Transaction Result) :
    (s.goOn who op rest w).underway other = s.underway other := by
  cases rest with
  | done result => exact Function.update_of_ne hne _ _
  | ask r next => exact Function.update_of_ne hne _ _

theorem turns_goOn_done (result : Result) :
    (s.goOn who op (.done result) w).turns = (op.turns result).reverse ++ s.turns := rfl

/-- An operation that is no update adds no turn. -/
theorem turns_goOn_of_not_update (hop : op.isUpdate = false) (result : Result) :
    (s.goOn who op (.done result) w).turns = s.turns := by
  rw [turns_goOn_done, Operation.turns_of_not_update hop]
  rfl

/-- Work under the lock never ends before the lock is given back. -/
@[simp] theorem goOn_thenUnlock (body : Transaction Result) :
    s.goOn who op (thenUnlock body) w =
      { s with
        world := w
        underway := Function.update s.underway who (some ⟨op, thenUnlock body⟩) } := by
  cases body <;> rfl

end GoOn

variable [Backend ρ]

/-- A step of a session. -/
inductive Step (settings : Settings) (outside : ρ → ρ → Prop) (s : Session ρ) :
    Session ρ → Prop where
  /-- Somebody begins an operation. -/
  | begins (who : Nat) (op : Operation) (hfree : s.underway who = none) :
      Step settings outside s
        { s with
          underway := Function.update s.underway who (some ⟨op, op.transaction settings⟩) }
  /-- A request is answered. -/
  | answers (who : Nat) (op : Operation) (r : Request) (next : r.Answer → Transaction Result)
      (answer : r.Answer) (w : World ρ)
      (hwho : s.underway who = some ⟨op, Script.ask (S := signature) r next⟩)
      (hattempt : s.world.attempt who r = (some answer, w)) :
      Step settings outside s (s.goOn who op (next answer) w)
  /-- A request is made that has to wait. -/
  | waits (who : Nat) (op : Operation) (r : Request) (next : r.Answer → Transaction Result)
      (w : World ρ) (hwho : s.underway who = some ⟨op, Script.ask (S := signature) r next⟩)
      (hattempt : s.world.attempt who r = (none, w)) :
      Step settings outside s { s with world := w }
  /-- The backend moves on its own. -/
  | moves (b : ρ) (hmove : outside s.world.backend b) :
      Step settings outside s { s with world := { s.world with backend := b } }
  /-- Other calls are held back than before. -/
  | gates (gated : List Container.Operation) :
      Step settings outside s { s with world := { s.world with gated } }

/-- The sessions that a crew on the backend `b` can come to. -/
inductive Reachable (settings : Settings) (outside : ρ → ρ → Prop) (b : ρ) : Session ρ → Prop where
  | start : Reachable settings outside b { world := { backend := b } }
  | step {s s' : Session ρ} : Reachable settings outside b s → Step settings outside s s' →
      Reachable settings outside b s'

/-! ## What requests leave alone -/

section Requests

variable {w w' : World ρ} {who : Nat} {r : Request}

theorem attempt_lock (access : Access) : w.attempt who (.lock access) =
    (if (w.lock.acquire who access).1 then some () else none,
      { w with lock := (w.lock.acquire who access).2 }) := rfl

theorem attempt_tryLock : w.attempt who .tryLock =
    (some (w.lock.tryShared who).1, { w with lock := (w.lock.tryShared who).2 }) := rfl

/-- Who has to wait changes the lock at most, by an entry for itself. -/
theorem attempt_waits (h : w.attempt who r = (none, w')) :
    w' = w ∨
      ∃ access, r = .lock access ∧ w' = { w with lock := (w.lock.acquire who access).2 } := by
  cases r with
  | lock access =>
    refine .inr ⟨access, rfl, ?_⟩
    exact ((Prod.ext_iff.1 h).2).symm
  | call c =>
    simp only [World.attempt] at h
    split at h
    · exact .inl (Prod.ext_iff.1 h).2.symm
    · cases h
  | _ => cases h

/-- A request of work that tends containers leaves everything but the backend alone, and the backend
is changed by a call that tends at most. -/
theorem answer_tends (hr : r.Tends) :
    (w.answer r).2.roster = w.roster ∧ (w.answer r).2.lastKnown = w.lastKnown ∧
      ((w.answer r).2.backend = w.backend ∨
        ∃ c, tends c = true ∧ (w.answer r).2.backend = (Backend.perform c w.backend).state) := by
  cases r with
  | call c => exact ⟨rfl, rfl, .inr ⟨c, hr, rfl⟩⟩
  | log => exact ⟨rfl, rfl, .inl rfl⟩
  | slot => exact ⟨rfl, rfl, .inl rfl⟩
  | lastKnown => exact ⟨rfl, rfl, .inl rfl⟩
  | lock => exact hr.elim
  | tryLock => exact hr.elim
  | unlock => exact hr.elim
  | setSlot => exact hr.elim
  | publish => exact hr.elim

theorem isLocking_of_tends (hr : r.Tends) : r.isLocking = false := by
  cases r with
  | lock => exact hr.elim
  | tryLock => exact hr.elim
  | unlock => exact hr.elim
  | _ => rfl

end Requests

end Session
end Caretaker.Crew
