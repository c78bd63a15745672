import Caretaker.Container.Basic
import Caretaker.Container.Fault
import Caretaker.Event

/-!
# Calls on containers

Everything the service asks of its containers is one of twelve calls.  A `Backend` is a state that
answers them.
-/

namespace Caretaker.Container

/-- The kind of a call. -/
inductive Operation where
  | list
  | start
  | restart
  | stop
  | terminate
  | awaitExit
  | awaitStart
  | prune
  | awaitPrune
  | ensureImage
  | inspect
  | nuke
deriving DecidableEq, Repr

namespace Operation

/-- Every operation. -/
def all : List Operation :=
  [list, start, restart, stop, terminate, awaitExit, awaitStart, prune, awaitPrune, ensureImage,
    inspect, nuke]

/-- The name of an operation in messages. -/
def name : Operation → String
  | list => "ListContainers"
  | start => "StartContainer"
  | restart => "RestartContainer"
  | stop => "StopContainer"
  | terminate => "TerminateContainer"
  | awaitExit => "WaitContainerExit"
  | awaitStart => "WaitContainerStart"
  | prune => "Prune"
  | awaitPrune => "WaitContainerPrune"
  | ensureImage => "EnsureLocalImage"
  | inspect => "GetContainerById"
  | nuke => "Nuke"

/-- The operation of that name. -/
def ofName? (name : String) : Option Operation := all.find? (·.name == name)

end Operation

/-- A call on the containers. -/
inductive Call where
  /-- All containers that are known. -/
  | list
  /-- Creates and starts a container, instead of any other one of its name. -/
  | start (descriptor : Descriptor)
  /-- Starts a stopped container again, with its id and descriptor. -/
  | restart (id : String)
  /-- Asks a container to stop, without waiting. -/
  | stop (id : String)
  /-- Sends the termination signal; fails if it cannot be delivered. -/
  | terminate (id : String)
  /-- Waits until a container runs no longer. -/
  | awaitExit (id : String)
  /-- Waits until a container runs. -/
  | awaitStart (id : String)
  /-- Removes stopped containers. -/
  | prune
  /-- Waits until a container is gone. -/
  | awaitPrune (id : String)
  /-- Makes sure that an image is there, for the named user of it. -/
  | ensureImage (user image : String)
  /-- A container as it is now. -/
  | inspect (id : String)
  /-- Removes every managed container, as far as that is possible. -/
  | nuke
deriving DecidableEq, Repr

namespace Call

/-- The kind of a call. -/
def operation : Call → Operation
  | list => .list
  | start _ => .start
  | restart _ => .restart
  | stop _ => .stop
  | terminate _ => .terminate
  | awaitExit _ => .awaitExit
  | awaitStart _ => .awaitStart
  | prune => .prune
  | awaitPrune _ => .awaitPrune
  | ensureImage _ _ => .ensureImage
  | inspect _ => .inspect
  | nuke => .nuke

/-- What a call is about: an id, the name of a container or an image. -/
def target : Call → String
  | list | prune | nuke => ""
  | start descriptor => descriptor.name
  | restart id | stop id | terminate id | awaitExit id | awaitStart id | awaitPrune id
  | inspect id => id
  | ensureImage _ image => image

/-- What a call gives when it succeeds. -/
abbrev Value : Call → Type
  | list => List ContainerInfo
  | start _ => Handle
  | inspect _ => ContainerInfo
  | _ => Unit

/-- The answer to a call. -/
abbrev Answer (call : Call) : Type := Except Fault call.Value

end Call

/-- An answer, with the state after it and what the log tells meanwhile. -/
structure Reply (α ρ : Type) where
  answer : α
  state : ρ
  events : List Event := []

/-- A state that answers calls on containers. -/
class Backend (ρ : Type) where
  /-- The answer of a state to a call. -/
  perform : (call : Call) → ρ → Reply call.Answer ρ

end Caretaker.Container
