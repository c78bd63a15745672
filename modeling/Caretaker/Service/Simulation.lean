import Caretaker.Service.World

/-!
# Simulated runs

A service can be run in simulated time: between two events from outside everything goes on that can,
and no time passes.  Time passes only in a sleep, and stops at every tick on the way.
-/

namespace Caretaker.Service

open Container (Backend)

/-- A service in simulated time. -/
structure Simulation (ρ : Type) where
  settings : Settings
  pool : Pool signature (World ρ) Ending

namespace Simulation

variable {ρ : Type} [Backend ρ]

/-- A service at whose start nothing happened yet. -/
def init (settings : Settings) (backend : ρ) (images : ImageStore) (probe : Probe) :
    Simulation ρ where
  settings
  pool := { world := { crew := { backend }, images, probe } }

/-- The world of a simulation. -/
def world (sim : Simulation ρ) : World ρ := sim.pool.world

/-- More turns than there can be: each task takes a few, and each item of the image stream and each
tick that is overdue lets the loops take a few more. -/
def turns (pool : Pool signature (World ρ) Ending) : Nat :=
  let tasks := pool.ready.length + pool.waiting.length + 8
  16 * tasks * (pool.world.images.pending.length + pool.world.clock + 8)

/-- Lets everything go on that can. -/
def settle (sim : Simulation ρ) : Simulation ρ :=
  let host := World.host ρ sim.settings
  let pool := sim.pool.wake host
  { sim with pool := pool.settle host (turns pool) }

/-- Changes the world from outside. -/
def change (f : World ρ → World ρ) (sim : Simulation ρ) : Simulation ρ :=
  settle { sim with pool := { sim.pool with world := f sim.pool.world } }

/-- Changes the backend from outside. -/
def changeBackend (f : ρ → ρ) : Simulation ρ → Simulation ρ :=
  change fun w => { w with crew := { w.crew with backend := f w.crew.backend } }

/-- Begins something, and gives the number by which its end is known. -/
def submit (action : Action Result) (sim : Simulation ρ) : Nat × Simulation ρ :=
  (sim.pool.nextNumber, settle { sim with pool := sim.pool.spawn (.result <$> action) })

/-- Begins an activity. -/
def begin (activity : Activity) (sim : Simulation ρ) : Simulation ρ :=
  settle { sim with pool := sim.pool.spawn (.round <$> activity.round sim.settings) }

/-- Whether everything that began has ended. -/
def isIdle (sim : Simulation ρ) : Bool := sim.pool.ready.isEmpty && sim.pool.waiting.isEmpty

/-- Holds back the calls of an operation from now on. -/
def hold (operation : Container.Operation) : Simulation ρ → Simulation ρ :=
  change fun w => { w with crew := { w.crew with gated := operation :: w.crew.gated } }

/-- Lets the calls of an operation pass. -/
def letPass (operation : Container.Operation) : Simulation ρ → Simulation ρ :=
  change fun w => { w with crew := { w.crew with gated := w.crew.gated.filter (· ≠ operation) } }

/-- Announces images one after the other before anything goes on, and tells how each went. -/
def publish (refs : List ImageRefs) (sim : Simulation ρ) :
    List (Option (Except ImageFault Unit)) × Simulation ρ :=
  let (answers, images) := announce refs sim.world.images
  (answers, sim.change fun w => { w with images })
where
  /-- Announces images one after the other. -/
  announce : List ImageRefs → ImageStore → List (Option (Except ImageFault Unit)) × ImageStore
    | [], images => ([], images)
    | refs :: rest, images =>
      let (answer, images) := images.publish? 0 refs
      let (answers, images) := announce rest images
      (answer :: answers, images)

/-- Drops the publisher. -/
def dropPublisher : Simulation ρ → Simulation ρ :=
  change fun w => { w with images := w.images.dropPublisher 0 }

/-- Takes the image stream away and drops it. -/
def takeImages (sim : Simulation ρ) : Option (Except ImageFault Unit) × Simulation ρ :=
  match sim.world.images.latest? with
  | (some (.ok ()), images) =>
    (some (.ok ()), sim.change fun w => { w with images := images.dropStream })
  | (answer, _) => (answer, sim)

/-- Sends a value of the shutdown signal; tells whether it was received, as it always is while there
is a sender. -/
def sendShutdown (value : Bool) (sim : Simulation ρ) : Option Bool × Simulation ρ :=
  if sim.world.shutdown.isOpen then
    (some true, sim.change fun w => { w with shutdown := w.shutdown.send value })
  else (none, sim)

/-- Drops the sender of the shutdown signal. -/
def closeShutdown : Simulation ρ → Simulation ρ :=
  change fun w => { w with shutdown := w.shutdown.close }

/-- The ticks that tasks wait for. -/
def awaitedTicks (sim : Simulation ρ) : List Nat :=
  sim.pool.waiting.filterMap fun task =>
    match task.script with
    | .ask (.tickOrShutdown nextTick _) _ => some nextTick
    | _ => none

/-- Lets time pass up to `deadline`, in at most `stops` stops. -/
def sleepUntil (deadline : Nat) : (stops : Nat) → Simulation ρ → Simulation ρ
  | 0, sim => sim.change fun w => { w with clock := deadline }
  | stops + 1, sim =>
    match (sim.awaitedTicks.filter (· ≤ deadline)).min? with
    | none => sim.change fun w => { w with clock := deadline }
    | some tick => sleepUntil deadline stops (sim.change fun w => { w with clock := tick })

/-- Lets time pass.  Every stop is at a later time, so their number is bounded by the time. -/
def sleep (milliseconds : Nat) (sim : Simulation ρ) : Simulation ρ :=
  sim.sleepUntil (sim.world.clock + milliseconds) (milliseconds + 1)

/-- What happened since the last time it was asked for. -/
structure News where
  /-- What tasks ended with, by number. -/
  results : List (Nat × Result)
  events : List Event
  checked : List Check
  fatal : List ServiceError

/-- What happened since the last time, each kind in order, and the simulation without it. -/
def news (sim : Simulation ρ) : News × Simulation ρ :=
  let w := sim.world
  let results := sim.pool.finished.reverse.filterMap fun (number, ending) =>
    match ending with
    | .result result => some (number, result)
    | .round _ => none
  ({ results, events := w.crew.events.reverse, checked := w.checked.reverse
     fatal := w.fatal.reverse },
    { sim with
      pool := { sim.pool with
        finished := []
        world := { w with crew := { w.crew with events := [] }, checked := [], fatal := [] } } })

end Simulation
end Caretaker.Service
