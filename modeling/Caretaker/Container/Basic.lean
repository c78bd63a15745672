import Caretaker.Dictionary

/-!
# Containers

What a container runtime is told and tells about containers: the descriptor a container is created
from, the handle to one that was created, and the state in which it is.
-/

namespace Caretaker

/-- Where a container is in its life. -/
inductive ContainerState where
  | created
  | running
  | paused
  | restarting
  | removing
  | exited
  | dead
  | unknown
deriving DecidableEq, Repr

namespace ContainerState

/-- The name of a state. -/
def name : ContainerState → String
  | created => "created"
  | running => "running"
  | paused => "paused"
  | restarting => "restarting"
  | removing => "removing"
  | exited => "exited"
  | dead => "dead"
  | unknown => "unknown"

/-- The state of that name; any other text is `unknown`. -/
def ofName : String → ContainerState
  | "created" => created
  | "running" => running
  | "paused" => paused
  | "restarting" => restarting
  | "removing" => removing
  | "exited" => exited
  | "dead" => dead
  | _ => unknown

theorem ofName_name (state : ContainerState) : ofName state.name = state := by
  cases state <;> rfl

end ContainerState

/-- A container as a runtime sees it at one moment. -/
structure ContainerInfo where
  id : String
  name : String
  image : String
  state : ContainerState
deriving DecidableEq, Repr

/-- What a container is created from. -/
structure Descriptor where
  name : String := ""
  image : String := ""
  command : List String := []
  environment : Dictionary String := ∅
  /-- Paths of the host, each with its path in the container. -/
  volumes : Dictionary String := ∅
  /-- Pairs of a host's and the container's network number; an empty one of the host is any. -/
  ports : List (String × String) := []
  /-- Files that are put under the root of the container before it starts. -/
  files : Dictionary (List UInt8) := ∅
  /-- Whether the container may reach the network of the host by name. -/
  dialHost : Bool := false
  maxLogSize : String := ""
  maxLogFiles : Nat := 0
deriving DecidableEq, Repr

/-- A container that was created, with the descriptor it was created from. -/
structure Handle where
  id : String
  name : String
  descriptor : Descriptor
deriving DecidableEq, Repr

end Caretaker
