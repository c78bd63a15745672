import Caretaker.Script

/-!
# Tasks

Several scripts run on one world.  A `Host` answers the requests of each, at once or not yet; a task
that is not answered waits.  Tasks that can go on form a queue: the first one runs until it has to
wait or ends, then those that it woke or spawned join the end of the queue.
-/

namespace Caretaker

/-- A script with a number by which the world knows it. -/
structure Task (S : Signature) (α : Type) where
  number : Nat
  script : Script S α

/-- A world for tasks. -/
structure Host (S : Signature) (W α : Type) where
  /-- The answer to a request of a task; none while the task has to wait.  A request that waited is
  put again when it may be answered. -/
  attempt : Nat → (r : S.Request) → W → Option (S.Answer r) × W
  /-- What a task goes on with that ended with a value, if it does not end for good. -/
  resume : α → Option (Script S α)
  /-- The scripts that were spawned and are no tasks yet. -/
  takeSpawned : W → List (Script S α) × W

/-- Runs a script until it has to wait or is done. -/
def Script.advance {S : Signature} {W α : Type}
    (attempt : (r : S.Request) → W → Option (S.Answer r) × W) : Script S α → W → Script S α × W
  | .done value, w => (.done value, w)
  | .ask r next, w =>
    match attempt r w with
    | (some answer, w) => (next answer).advance attempt w
    | (none, w) => (.ask r next, w)

/-- Tasks with their world. -/
structure Pool (S : Signature) (W α : Type) where
  world : W
  /-- The number of the next task. -/
  nextNumber : Nat := 0
  /-- Tasks that can go on, in the order in which they will. -/
  ready : List (Task S α) := []
  /-- Tasks that wait for an answer, in the order in which they began to. -/
  waiting : List (Task S α) := []
  /-- What tasks ended with, the last one first. -/
  finished : List (Nat × α) := []

namespace Pool

variable {S : Signature} {W α : Type}

/-- Adds a task at the end of the queue. -/
def spawn (script : Script S α) (pool : Pool S W α) : Pool S W α :=
  { pool with
    nextNumber := pool.nextNumber + 1
    ready := pool.ready ++ [⟨pool.nextNumber, script⟩] }

/-- Makes tasks of what was spawned. -/
def adopt (host : Host S W α) (pool : Pool S W α) : Pool S W α :=
  let (scripts, world) := host.takeSpawned pool.world
  scripts.foldl (fun pool script => pool.spawn script) { pool with world }

/-- Whether a task would be answered now. -/
def canGoOn (host : Host S W α) (world : W) (task : Task S α) : Bool :=
  match task.script with
  | .done _ => true
  | .ask r _ => (host.attempt task.number r world).1.isSome

/-- Puts waiting tasks that can go on at the end of the queue. -/
def wake (host : Host S W α) (pool : Pool S W α) : Pool S W α :=
  let canGoOn := canGoOn host pool.world
  { pool with
    ready := pool.ready ++ pool.waiting.filter canGoOn
    waiting := pool.waiting.filter (!canGoOn ·) }

/-- Lets the first task of the queue run. -/
def turn (host : Host S W α) (pool : Pool S W α) : Pool S W α :=
  match pool.ready with
  | [] => pool
  | task :: ready =>
    let (script, world) := task.script.advance (host.attempt task.number) pool.world
    let pool := { pool with world, ready }
    let pool :=
      match script with
      | .done value =>
        match host.resume value with
        | some script => { pool with ready := { task with script } :: pool.ready }
        | none => { pool with finished := (task.number, value) :: pool.finished }
      | .ask .. => { pool with waiting := pool.waiting ++ [{ task with script }] }
    (pool.adopt host).wake host

/-- Lets tasks run until all of them wait, for at most `turns` turns. -/
def settle (host : Host S W α) : (turns : Nat) → Pool S W α → Pool S W α
  | 0, pool => pool
  | turns + 1, pool =>
    match pool.ready with
    | [] => pool
    | _ :: _ => settle host turns (pool.turn host)

end Pool
end Caretaker
