import Caretaker.Crew.World
import Caretaker.Service.Activities
import Caretaker.Tasks

/-!
# The world of the service

The world of the crew, with the image store, the probe, the clock, the shutdown signal and the
addresses that are served on.  It answers the requests of the service and of what goes on in the
background.
-/

namespace Caretaker.Service

open Container (Backend)

/-- How far the updates are. -/
inductive Updates where
  | absent
  | running
  | ended
deriving DecidableEq, Repr

/-- What everything that the service does shares. -/
structure World (ρ : Type) where
  crew : Crew.World ρ
  images : ImageStore
  probe : Probe
  /-- The checks that were asked for, the last one first. -/
  checked : List Check := []
  /-- The time in milliseconds. -/
  clock : Nat := 0
  shutdown : ShutdownSignal := {}
  /-- The addresses that are served on. -/
  served : List Net.SocketAddress := []
  updates : Updates := .absent
  /-- Whether somebody may still ask to wait for the updates. -/
  claimable : Bool := false
  /-- The errors the service could not go on from, the last one first. -/
  fatal : List ServiceError := []
  /-- Activities that were spawned and did not begin. -/
  spawned : List Activity := []

/-- What a task of the service ends with. -/
inductive Result where
  | crew (result : Crew.Result)
  | called (call : Container.Call) (answer : call.Answer)
  | started (result : Except ServiceError Unit)
  | finished
  | report (report : HealthReport)
  | response (response : Health.Response)

/-- How a task of the service ends: with a result for who asked for it, or as a round of an
activity. -/
inductive Ending where
  | result (result : Result)
  | round (next : Next)

namespace World

variable {ρ : Type}

/-- Notes that updates, if it is them, were spawned. -/
def noteSpawn (activity : Activity) (w : World ρ) : World ρ :=
  if activity = .updates then { w with updates := .running, claimable := true } else w

/-- Whether an address can be served on: any number does for who asks for none in particular. -/
def isFree (address : Net.SocketAddress) (w : World ρ) : Bool :=
  address.port = 0 || address ∉ w.served

/-- Answers a request of the task `who`; none while the task has to wait.  When a tick and news of
the shutdown are there at once, the tick comes first. -/
def attempt [Backend ρ] (who : Nat) : (r : Request) → World ρ → Option r.Answer × World ρ
  | .crew r, w =>
    let (answer, crew) := w.crew.attempt who r
    (answer, { w with crew })
  | .check c, w =>
    let crew := { w.crew with events := (w.probe.events c).reverse ++ w.crew.events }
    (some (w.probe.answer c), { w with crew, checked := c :: w.checked })
  | .embeddedImages, w => (some w.images.embedded, w)
  | .takeImages, w =>
    let (result, images) := w.images.latest?
    (some (result.getD (.error .closed)), { w with images })
  | .nextImages, w =>
    match w.images.poll? with
    | (some (.item refs), images) => (some (some refs), { w with images })
    | (some .pending, _) => (none, w)
    | _ => (some none, w)
  | .leaveImages, w => (some (), { w with images := w.images.dropStream, updates := .ended })
  | .spawn activity, w =>
    (some (), { w.noteSpawn activity with spawned := w.spawned ++ [activity] })
  | .now, w => (some w.clock, w)
  | .tickOrShutdown nextTick seen, w =>
    if nextTick ≤ w.clock then (some .tick, w)
    else ((w.shutdown.news? seen).map .shutdown, w)
  | .shutdown seen, w => (w.shutdown.news? seen, w)
  | .listen address, w =>
    if w.isFree address then (some true, { w with served := address :: w.served })
    else (some false, w)
  | .leave address, w => (some (), { w with served := w.served.erase address })
  | .fatal error, w => (some (), { w with fatal := error :: w.fatal })
  | .claimUpdates, w => (some w.claimable, { w with claimable := false })
  | .awaitUpdates, w => (if w.updates = .running then none else some (), w)

/-- The host of the tasks of a service. -/
def host (ρ : Type) [Backend ρ] (settings : Settings) : Host signature (World ρ) Ending where
  attempt := attempt
  resume
    | .round (some activity) => some (.round <$> activity.round settings)
    | _ => none
  takeSpawned w :=
    (w.spawned.map fun activity => .round <$> activity.round settings, { w with spawned := [] })

end World
end Caretaker.Service
