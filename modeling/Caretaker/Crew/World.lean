import Caretaker.Crew.FairLock
import Caretaker.Crew.Operation

/-!
# The world of the crew

The guarded roster with its copy and its lock, the backend, and what the log told.  A world answers
the requests of several tasks, each known by a number.  A call can be held back: while its operation
is gated it waits before it reaches the backend.
-/

namespace Caretaker.Crew

open Container (Backend)

/-- What the tasks on one crew share. -/
structure World (ρ : Type) where
  backend : ρ
  roster : Roster := {}
  /-- The copy of the roster that can always be read. -/
  lastKnown : Roster := {}
  lock : FairLock := {}
  /-- The operations whose calls are held back. -/
  gated : List Container.Operation := []
  /-- What the log told, the last event first. -/
  events : List Event := []
deriving Repr

namespace World

variable {ρ : Type}

/-- A world with one more event in its log. -/
def tell (event : Event) (w : World ρ) : World ρ := { w with events := event :: w.events }

/-- Makes a call on the backend. -/
def perform [Backend ρ] (call : Container.Call) (w : World ρ) : call.Answer × World ρ :=
  let reply := Backend.perform call w.backend
  (reply.answer,
    { w with backend := reply.state, events := reply.events.reverse ++ w.events })

/-- Answers a request of the task `who`; none while the task has to wait. -/
def attempt [Backend ρ] (who : Nat) : (r : Request) → World ρ → Option r.Answer × World ρ
  | .lock access, w =>
    let (held, lock) := w.lock.acquire who access
    (if held then some () else none, { w with lock })
  | .tryLock, w =>
    let (held, lock) := w.lock.tryShared who
    (some held, { w with lock })
  | .unlock, w => (some (), { w with lock := w.lock.release who })
  | .call call, w =>
    if call.operation ∈ w.gated then (none, w)
    else
      let (answer, w) := w.perform call
      (some answer, w)
  | .log event, w => (some (), w.tell event)
  | .slot role, w => (some (w.roster.slot role), w)
  | .setSlot role slot, w => (some (), { w with roster := w.roster.put role slot })
  | .publish role, w =>
    (some (), { w with lastKnown := w.lastKnown.put role (w.roster.slot role) })
  | .lastKnown, w => (some w.lastKnown, w)

/-- Answers a request when nobody else is there: the lock is free and nothing is held back. -/
def answer [Backend ρ] : (r : Request) → World ρ → r.Answer × World ρ
  | .lock _, w => ((), w)
  | .tryLock, w => (true, w)
  | .unlock, w => ((), w)
  | .call call, w => w.perform call
  | .log event, w => ((), w.tell event)
  | .slot role, w => (w.roster.slot role, w)
  | .setSlot role slot, w => ((), { w with roster := w.roster.put role slot })
  | .publish role, w => ((), { w with lastKnown := w.lastKnown.put role (w.roster.slot role) })
  | .lastKnown, w => (w.lastKnown, w)

end World

/-- The value of a transaction and the world after it, when nobody else is there. -/
def Transaction.run {ρ α : Type} [Backend ρ] (t : Transaction α) (w : World ρ) : α × World ρ :=
  Script.run (S := signature) World.answer t w

end Caretaker.Crew
