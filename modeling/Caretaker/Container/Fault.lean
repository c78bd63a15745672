/-!
# What can go wrong with containers

A call on the containers fails with a `Container.Fault`.  Faults of an engine have kinds of their
own, since only some of them say what the engine answered.
-/

namespace Caretaker

/-- What can go wrong in an exchange with a container engine. -/
inductive EngineFault where
  /-- The engine answered with a status that is no success. -/
  | response (status : Nat) (message : String)
  /-- An item of a stream reported an error. -/
  | stream (message : String)
  /-- A wait ended with an exit code that is no success. -/
  | wait (code : Int) (message : String)
  /-- There is no socket of that path. -/
  | socketMissing (path : String)
  /-- The engine could not be reached, or the connection broke. -/
  | transport
  /-- The engine answered something that could not be read. -/
  | undecodable
  /-- The engine did not answer in time. -/
  | timedOut
deriving DecidableEq, Repr

namespace EngineFault

/-- The wording of an engine fault. -/
def message : EngineFault → String
  | response status message => s!"Docker responded with status code {status}: {message}"
  | stream _ => "Docker stream error"
  | wait _ _ => "Docker container wait error"
  | socketMissing path => s!"Socket not found: {path}"
  | transport => "error trying to connect"
  | undecodable => "Failed to deserialize JSON"
  | timedOut => "Timeout error"

/-- The status of an answer that is no success, if that is the fault. -/
def status? : EngineFault → Option Nat
  | response status _ => some status
  | _ => none

end EngineFault

namespace Container

/-- What can go wrong in a call on the containers. -/
inductive Fault where
  | engine (cause : EngineFault)
  | io (message : String)
  | api (status : Nat) (message : String)
  | notFound (id : String)
  /-- The container did not reach a condition in time. -/
  | timeout (id condition : String)
  | other (message : String)
deriving DecidableEq, Repr

namespace Fault

/-- The wording of a fault. -/
def message : Fault → String
  | engine cause => s!"Docker error: {cause.message}"
  | io message => s!"I/O error: {message}"
  | api status message => s!"API error {status}: {message}"
  | notFound id => s!"container not found: {id}"
  | timeout id condition => s!"timed out waiting for container {id} to {condition}"
  | other message => message

/-- The wording of a fault and of its causes. -/
def chain (fault : Fault) : List String :=
  match fault with
  | engine cause => [fault.message, cause.message]
  | io message => [fault.message, message]
  | _ => [fault.message]

end Fault
end Container
end Caretaker
