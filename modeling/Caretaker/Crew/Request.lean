import Caretaker.Container.Call
import Caretaker.Crew.Roster
import Caretaker.Script

/-!
# What an operation on the crew asks for

Operations guard the roster by a lock that many readers or one writer can hold.  Beside the guarded
roster there is a copy of it that can always be read; an operation says when the copy of a slot is
brought up to date.
-/

namespace Caretaker.Crew

/-- How the lock is held. -/
inductive Access where
  | shared
  | exclusive
deriving DecidableEq, Repr

/-- What an operation asks for. -/
inductive Request where
  /-- The lock; this may take a while. -/
  | lock (access : Access)
  /-- The lock for reading, if it can be had at once. -/
  | tryLock
  | unlock
  | call (call : Container.Call)
  | log (event : Event)
  /-- The guarded slot of a role. -/
  | slot (role : Role)
  | setSlot (role : Role) (slot : Slot)
  /-- Brings the copy of a slot up to date. -/
  | publish (role : Role)
  /-- The copy of the roster. -/
  | lastKnown

/-- What a request is answered with. -/
abbrev Request.Answer : Request → Type
  | tryLock => Bool
  | call c => c.Answer
  | slot _ => Slot
  | lastKnown => Roster
  | _ => Unit

/-- The requests of operations on the crew. -/
abbrev signature : Signature := ⟨Request, Request.Answer⟩

/-- An operation on the crew, or a part of one. -/
abbrev Transaction (α : Type) := Script signature α

namespace Transaction

/-- Asks for one thing. -/
def ask (request : Request) : Transaction request.Answer :=
  Script.ask (S := signature) request .done

/-- A call on the containers. -/
def call (c : Container.Call) : Transaction c.Answer := ask (.call c)

/-- An event of this component. -/
def log (level : Level) (message : String) (fields : List (String × EventValue)) :
    Transaction Unit :=
  ask (.log { level, component := .crew, message, fields })

/-- The guarded slot of a role. -/
def slot (role : Role) : Transaction Slot := ask (.slot role)

/-- Sets the guarded slot of a role. -/
def setSlot (role : Role) (s : Slot) : Transaction Unit :=
  ask (.setSlot role s)

/-- Brings the copy of a slot up to date. -/
def publish (role : Role) : Transaction Unit := ask (.publish role)

/-- The copy of the roster. -/
def lastKnown : Transaction Roster := ask .lastKnown

/-- Waits for the lock. -/
def lock (access : Access) : Transaction Unit := ask (.lock access)

/-- Takes the lock for reading, if it can be had at once. -/
def tryLock : Transaction Bool := ask .tryLock

/-- Gives the lock back. -/
def unlock : Transaction Unit := ask .unlock

/-- Runs `body` while the lock is held. -/
def locked (access : Access) (body : Transaction α) : Transaction α := do
  lock access
  let value ← body
  unlock
  return value

/-- Runs `body` while the lock is held for reading, if it can be had at once. -/
def ifFree (body otherwise : Transaction α) : Transaction α := do
  if ← tryLock then
    let value ← body
    unlock
    return value
  else otherwise

end Transaction
end Caretaker.Crew
