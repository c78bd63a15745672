import Caretaker.Container.Call
import Caretaker.Engine.Answer
import Caretaker.Engine.Archive
import Caretaker.Engine.CreateRequest
import Caretaker.Engine.Exchange
import Caretaker.Json.Lines

/-!
# Calls on the containers of an engine

Each call on the containers is an action of a client of an engine: a few requests, one after the
other, of which the first that fails ends the call.  `perform` is the action of any call.
-/

namespace Caretaker.Engine

open Container (Call Fault)

/-- How long a client waits. -/
structure Timing where
  /-- The time in milliseconds that a container has to reach a condition. -/
  limit : Nat := 30000
  /-- The time in milliseconds between two looks at a container. -/
  interval : Nat := 500
deriving DecidableEq, Repr

/-- An action that may fail. -/
abbrev Fallible (α : Type) := ExceptT Fault Action α

/-- An exchange whose faults are faults of the call. -/
def Fallible.ofExchange (action : Action (Except EngineFault α)) : Fallible α :=
  ExceptT.mk do return (← action).mapError .engine

/-- An exchange in which a status that is no success has a meaning of its own. -/
def Fallible.orOn (status : Nat) (answer : Except Fault α)
    (action : Action (Except EngineFault α)) : Fallible α :=
  ExceptT.mk do
    match ← action with
    | .ok value => return .ok value
    | .error fault => return if fault.status? = some status then answer else .error (.engine fault)

open Fallible (ofExchange orOn)

/-- The status for something that is not there. -/
def notThere : Nat := 404

/-- Log from within a call. -/
def note (level : Level) (message : String) (fields : List (String × EventValue)) : Fallible Unit :=
  ExceptT.lift (log level message fields)

/-! ## Requests -/

/-- A condition on containers, as an engine reads it. -/
def filter (key value : String) : String := Json.render (.object [(key, .array [.string value])])

/-- The condition on containers that is true of all of them. -/
def anyContainer : String := Json.render (.object [])

/-- The condition that a container is managed here. -/
def managed : String := filter "label" managedLabel

namespace Request

/-- Asks for all containers that satisfy a condition. -/
def list (condition : String) : Request :=
  on .get "/containers/json" [("all", "true"), ("filters", condition), ("size", "false")]

/-- Asks for a container to be removed, even if it runs. -/
def remove (id : String) : Request :=
  on .delete s!"/containers/{id}" [("force", "true"), ("link", "false"), ("v", "false")]

/-- Asks for a container with a descriptor. -/
def create (d : Descriptor) : Request :=
  on .post "/containers/create" [("name", d.name)] (.json (CreateRequest.ofDescriptor d).toJson)

/-- Puts an archive of files under the root of a container. -/
def upload (id : String) (archive : List UInt8) : Request :=
  on .put s!"/containers/{id}/archive" [("noOverwriteDirNonDir", ""), ("path", "/")]
    (.bytes archive)

/-- Starts a container. -/
def start (id : String) : Request := on .post s!"/containers/{id}/start"

/-- Stops a container; it has ten seconds before it is killed. -/
def stop (id : String) : Request := on .post s!"/containers/{id}/stop" [("t", "10")]

/-- Sends the termination signal to a container. -/
def terminate (id : String) : Request :=
  on .post s!"/containers/{id}/kill" [("signal", "SIGTERM")]

/-- Asks to be told of the exit of a container. -/
def awaitExit (id : String) : Request :=
  on .post s!"/containers/{id}/wait" [("condition", "not-running")]

/-- Removes the managed containers that are stopped. -/
def prune : Request := on .post "/containers/prune" [("filters", managed)]

/-- Asks for a container. -/
def inspect (id : String) : Request := on .get s!"/containers/{id}/json"

/-- Asks for an image. -/
def inspectImage (image : String) : Request := on .get s!"/images/{image}/json"

/-- Asks for an image to be pulled. -/
def pull (image : String) : Request :=
  on .post "/images/create"
    [("fromImage", image), ("fromSrc", ""), ("platform", ""), ("repo", ""), ("tag", "")]

end Request

/-! ## Calls -/

/-- The containers that satisfy a condition. -/
def list (condition : String) : Fallible (List ContainerInfo) :=
  ofExchange (ask (.list condition) (Json.Tree.list? Answer.summary?))

/-- Removes a container; one that is not there is removed already. -/
def remove (id : String) : Fallible Unit := orOn notThere (.ok ()) (tell (.remove id))

/-- Puts the files of a descriptor into a container, if there are any. -/
def upload (id : String) (files : Dictionary (List UInt8)) : Fallible Unit := do
  if files.isEmpty then return
  let archive ← ExceptT.mk (pure ((Archive.ofFiles files).mapError .io))
  ofExchange (tell (.upload id archive))

/-- Removes the containers of a name; of those in the list others have the name in theirs. -/
def removeNamesakes (name : String) : List ContainerInfo → Fallible Unit
  | [] => return
  | container :: rest => do
    if container.name == name then
      note .info "Removing container with the same name"
        [("container_id", container.id), ("name", name), ("image", container.image)]
      remove container.id
    removeNamesakes name rest

/-- Starts a container from a descriptor.  Containers of its name go before it is created, and its
files are there before it starts. -/
def start (d : Descriptor) : Fallible Handle := do
  removeNamesakes d.name (← list (filter "name" d.name))
  let id ← ofExchange (ask (.create d) Answer.createdId?)
  upload id d.files
  ofExchange (tell (.start id))
  note .info "Container started"
    [("container_id", id), ("name", d.name), ("image", d.image)]
  return { id, name := d.name, descriptor := d }

/-- A container as it is now. -/
def inspect (id : String) : Fallible ContainerInfo :=
  orOn notThere (.error (.notFound id)) (ask (.inspect id) (Answer.container? id))

/-- How a stream of exits that began ends the wait for one.  Any exit is one, whatever its code, and
so is the end of the stream. -/
def exitOf (id : String) (exits : Json.Stream Answer.Exit) : Fallible Unit :=
  match exits.items with
  | [] => if exits.isWhole then return else throw (.engine .undecodable)
  | exit :: _ =>
    let isFailure := 0 < exit.code && (exit.error.isNone || exit.error.any (·.isSome))
    if isFailure then
      note .debug "Container exited with non-zero code"
        [("container_id", id), ("code", .number exit.code)]
    else return

/-- Waits for the exit of a container; one that is not there has exited.  Only silence is out of
time. -/
def awaitExit (timing : Timing) (id : String) : Fallible Unit := do
  let limit := min timing.limit requestLimit
  match ← ExceptT.lift (send (.awaitExit id) limit) with
  | .silent =>
    if timing.limit ≤ requestLimit then throw (.timeout id "exit") else throw (.engine .timedOut)
  | outcome =>
    match outcome.body with
    | .ok body => exitOf id (.read Answer.exit? body)
    | .error fault => if fault.status? = some notThere then return else throw (.engine fault)

/-- Looks at a container until what is seen decides the wait, at most `looks` times.  The last look
is the first one that ends at the deadline or after it. -/
def poll (timing : Timing) (id condition : String)
    (decide : Except Fault ContainerInfo → Except Fault Bool) (deadline : Nat) :
    (looks : Nat) → Fallible Unit
  | 0 => throw (.timeout id condition)
  | looks + 1 => do
    let seen ← ExceptT.lift (inspect id).run
    if ← ExceptT.mk (pure (decide seen)) then return
    if deadline ≤ (← ExceptT.lift now) then throw (.timeout id condition)
    ExceptT.lift (pause timing.interval)
    poll timing id condition decide deadline looks

/-- Looks at a container from now on until the deadline of the timing.  As many looks as there are
intervals up to the deadline, and one more, are enough. -/
def waitUntil (timing : Timing) (id condition : String)
    (decide : Except Fault ContainerInfo → Except Fault Bool) : Fallible Unit := do
  let deadline := (← ExceptT.lift now) + timing.limit
  poll timing id condition decide deadline
    ((timing.limit + timing.interval - 1) / timing.interval + 1)

/-- Whether a container runs. -/
def isRunning (seen : Except Fault ContainerInfo) : Except Fault Bool :=
  seen.map (·.state = .running)

/-- Whether a container is gone. -/
def isGone : Except Fault ContainerInfo → Except Fault Bool
  | .ok _ => .ok false
  | .error (.notFound _) => .ok true
  | .error fault => .error fault

/-- Removes the managed containers that are stopped. -/
def prune : Fallible Unit := do
  let removed ← ofExchange (ask .prune Answer.removedCount?)
  note .debug "Pruned stopped containers" [("removed", .number removed)]

/-- Whether an image is there. -/
def hasImage (image : String) : Fallible Bool :=
  orOn notThere (.ok false) do
    return (← ask (.inspectImage image) Answer.image?).map fun _ => true

/-- Tells what an engine told while it pulled an image, up to the first error. -/
def reportProgress (user : String) : List Answer.Progress → Fallible Unit
  | [] => return
  | { error := some message, .. } :: _ => throw (.engine (.stream message))
  | { status, error := none } :: rest => do
    if let some status := status then
      note .debug "Pull progress" [("name", user), ("status", status)]
    reportProgress user rest

/-- Makes sure that an image is there: it is pulled if it is not, and looked for again. -/
def ensureImage (user image : String) : Fallible Unit := do
  let fields : List (String × EventValue) := [("name", user), ("image_ref", image)]
  if ← hasImage image then
    note .debug "Image already present" fields
    return
  note .info "Pulling image" fields
  let told := Json.Stream.read Answer.progress? (← ofExchange (exchange (.pull image)))
  reportProgress user told.items
  if !told.isWhole then throw (.engine .undecodable)
  if !(← hasImage image) then throw (.notFound image)

/-- Removes the containers of a list, as far as that is possible. -/
def removeEach : List ContainerInfo → Fallible Unit
  | [] => return
  | container :: rest => do
    match ← ExceptT.lift (remove container.id).run with
    | .ok () => pure ()
    | .error fault =>
      note .warn "Failed to remove leftover container"
        [("container_id", container.id), ("error", fault.message)]
    removeEach rest

/-- Removes every managed container. -/
def nuke : Fallible Unit := do
  let containers ← list managed
  note .info "Removing leftover managed containers" [("count", .number containers.length)]
  removeEach containers

/-- The action of a call. -/
def perform (timing : Timing) : (call : Call) → Fallible call.Value
  | .list => list anyContainer
  | .start d => start d
  | .restart id => orOn notThere (.error (.notFound id)) (tell (.start id))
  | .stop id => ofExchange (tell (.stop id))
  | .terminate id => orOn notThere (.error (.notFound id)) (tell (.terminate id))
  | .awaitExit id => awaitExit timing id
  | .awaitStart id => waitUntil timing id "start" isRunning
  | .prune => prune
  | .awaitPrune id => waitUntil timing id "be pruned" isGone
  | .ensureImage user image => ensureImage user image
  | .inspect id => inspect id
  | .nuke => nuke

end Caretaker.Engine
