import Caretaker.Crew.Request

/-!
# A fair lock

Many readers or one writer hold the lock.  Who cannot have it at once waits in a queue, and the lock
is handed over in the order of the queue: a writer that waits also holds back readers that come
later.
-/

namespace Caretaker.Crew

/-- Who holds a lock and who waits for it, by number. -/
structure FairLock where
  holders : List (Nat × Access) := []
  /-- Those who wait, the first one first. -/
  queue : List (Nat × Access) := []
deriving DecidableEq, Repr

namespace FairLock

/-- Whether the holders leave room for one more. -/
def admits (lock : FairLock) : Access → Bool
  | .shared => lock.holders.all (·.2 = .shared)
  | .exclusive => lock.holders.isEmpty

/-- Whether somebody holds the lock. -/
def holds (lock : FairLock) (who : Nat) : Bool := lock.holders.any (·.1 = who)

/-- Whether somebody waits for the lock. -/
def awaits (lock : FairLock) (who : Nat) : Bool := lock.queue.any (·.1 = who)

/-- Whether a reader would have the lock at once. -/
def isReadable (lock : FairLock) : Bool := lock.queue.isEmpty && lock.admits .shared

/-- Asks for the lock, and tells whether it is held now.  Who holds it already was handed it over;
who waits already keeps the place in the queue. -/
def acquire (who : Nat) (access : Access) (lock : FairLock) : Bool × FairLock :=
  if lock.holds who then (true, lock)
  else if lock.awaits who then (false, lock)
  else if lock.queue.isEmpty && lock.admits access then
    (true, { lock with holders := (who, access) :: lock.holders })
  else (false, { lock with queue := lock.queue ++ [(who, access)] })

/-- Takes the lock for reading, if that is possible at once. -/
def tryShared (who : Nat) (lock : FairLock) : Bool × FairLock :=
  if lock.isReadable then (true, { lock with holders := (who, .shared) :: lock.holders })
  else (false, lock)

/-- Hands the lock to those at the front of `queue`, as far as `holders` leave room. -/
def handOver (holders : List (Nat × Access)) : (queue : List (Nat × Access)) → FairLock
  | [] => { holders }
  | (who, access) :: queue =>
    if admits { holders } access then handOver ((who, access) :: holders) queue
    else { holders, queue := (who, access) :: queue }

/-- Gives the lock back. -/
def release (who : Nat) (lock : FairLock) : FairLock :=
  handOver (lock.holders.filter (·.1 ≠ who)) lock.queue

end FairLock
end Caretaker.Crew
