import Caretaker.Container.Call
import Caretaker.Text.Number

/-!
# Containers in memory

A backend that keeps its containers in memory, remembers every call and can be told which operations
fail.  A call that fails is remembered and changes nothing else.
-/

namespace Caretaker.Container

/-- A container in memory. -/
structure Stored where
  info : ContainerInfo
  descriptor : Descriptor
deriving DecidableEq, Repr

/-- A call that was made: its kind and what it was about. -/
structure Recorded where
  operation : Operation
  target : String
deriving DecidableEq, Repr

/-- Containers in memory. -/
structure Memory where
  /-- The containers by id. -/
  containers : Dictionary Stored := ∅
  /-- The operations that fail. -/
  failing : List Operation := []
  /-- How many containers were ever started. -/
  started : Nat := 0
  /-- The calls that were made, the last one first. -/
  history : List Recorded := []
deriving Repr

namespace Memory

/-- Every later call of an operation fails. -/
def fail (operation : Operation) (m : Memory) : Memory :=
  if operation ∈ m.failing then m else { m with failing := operation :: m.failing }

/-- Calls of an operation fail no longer. -/
def recover (operation : Operation) (m : Memory) : Memory :=
  { m with failing := m.failing.filter (· ≠ operation) }

/-- Puts a container into a state, if it is there. -/
def setState (id : String) (state : ContainerState) (m : Memory) : Memory :=
  { m with containers := m.containers.modify id fun c => { c with info := { c.info with state } } }

/-- The calls that were made, in order. -/
def calls (m : Memory) : List Recorded := m.history.reverse

/-- The targets of the calls of one kind, in order. -/
def targets (operation : Operation) (m : Memory) : List String :=
  (m.calls.filter (·.operation = operation)).map (·.target)

/-- Forgets the calls that were made. -/
def clearCalls (m : Memory) : Memory := { m with history := [] }

/-- The containers, in the order of their ids. -/
def infos (m : Memory) : List ContainerInfo := m.containers.entries.map (·.2.info)

/-- The descriptor of the container with a name. -/
def descriptorOf? (name : String) (m : Memory) : Option Descriptor :=
  (m.containers.entries.find? (·.2.info.name == name)).map (·.2.descriptor)

/-- The id of the container that is started after `started` others. -/
def idOf (started : Nat) : String :=
  "ctr_" ++ String.ofList (Text.paddedDigits 16 12 started)

/-- Remembers a call. -/
def record (call : Call) (m : Memory) : Memory :=
  { m with history := ⟨call.operation, call.target⟩ :: m.history }

/-- An event of this backend. -/
def event (level : Level) (message : String) (fields : List (String × EventValue)) : Event :=
  { level, component := .memory, message := "[MOCK] " ++ message, fields }

/-- The containers without those of a name. -/
def withoutName (name : String) (m : Memory) : Dictionary Stored :=
  m.containers.filter fun _ c => c.info.name != name

/-- Starts a container: others of its name go, and it gets the next id. -/
def start (descriptor : Descriptor) (m : Memory) : Reply Handle Memory :=
  let id := idOf m.started
  let stale := m.containers.entries.filter (·.2.info.name == descriptor.name)
  let info : ContainerInfo :=
    { id, name := descriptor.name, image := descriptor.image, state := .running }
  { answer := { id, name := descriptor.name, descriptor }
    state :=
      { m with
        containers := (m.withoutName descriptor.name).insert id { info, descriptor }
        started := m.started + 1 }
    events :=
      stale.map (fun (id, _) =>
        event .info "Removing container with the same name"
          [("container_id", id), ("name", descriptor.name)])
      ++ [event .info "Starting container"
          [("container_id", id), ("name", descriptor.name), ("image", descriptor.image)]] }

/-- The answer to a call that does not fail at once. -/
def serve (m : Memory) : (call : Call) → Reply call.Answer Memory
  | .list => { answer := .ok m.infos, state := m }
  | .start descriptor =>
    let reply := m.start descriptor
    { answer := .ok reply.answer, state := reply.state, events := reply.events }
  | .restart id =>
    match m.containers.get? id with
    | none => { answer := .error (.notFound id), state := m }
    | some _ =>
      { answer := .ok (), state := m.setState id .running
        events := [event .info "Restarting container" [("container_id", id)]] }
  | .stop id =>
    { answer := .ok (), state := m.setState id .exited
      events := [event .debug "Stopping container" [("container_id", id)]] }
  | .terminate id =>
    match m.containers.get? id with
    | none => { answer := .error (.notFound id), state := m }
    | some _ => { answer := .ok (), state := m.setState id .exited }
  | .awaitExit _ => { answer := .ok (), state := m }
  | .awaitStart _ => { answer := .ok (), state := m }
  | .prune =>
    { answer := .ok ()
      state := { m with containers := m.containers.filter fun _ c => c.info.state ≠ .exited } }
  | .awaitPrune _ => { answer := .ok (), state := m }
  | .ensureImage user image =>
    { answer := .ok (), state := m
      events := [event .debug "Image ensured" [("name", user), ("image_ref", image)]] }
  | .inspect id =>
    match m.containers.get? id with
    | none => { answer := .error (.notFound id), state := m }
    | some c => { answer := .ok c.info, state := m }
  | .nuke => { answer := .ok (), state := { m with containers := ∅ } }

/-- The fault of an operation that was told to fail. -/
def toldToFail (operation : Operation) : Fault :=
  .other s!"mock runtime configured to fail {operation.name}"

/-- The answer to a call: it is remembered, and fails at once if it was told to. -/
def perform (call : Call) (m : Memory) : Reply call.Answer Memory :=
  let m := m.record call
  if call.operation ∈ m.failing then
    { answer := .error (toldToFail call.operation), state := m }
  else m.serve call

instance : Backend Memory := ⟨perform⟩

end Memory
end Caretaker.Container
