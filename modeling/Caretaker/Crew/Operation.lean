import Caretaker.Crew.Replace

/-!
# Operations on the crew

Each operation takes the lock once and holds it to its end, calls on containers included, so that at
most one sequence of changes is under way.  Only the status of the roles never waits: when the lock
is taken it tells what is last known.
-/

namespace Caretaker.Crew

open Transaction

/-- What became of one role when an update was applied. -/
structure RoleUpdate where
  role : Role
  result : Replaced
deriving Repr

/-- Whether a replace failed so badly that nothing more should be done. -/
def isFatal : Replaced → Bool
  | .error e => e.isFatal
  | .ok _ => false

/-- The state of one role, with what its container was seen to be. -/
structure RoleStatus where
  role : Role
  image : Option String
  containerId : Option String
  phase : Phase
  /-- The state of the container, where it could be asked. -/
  state : Option ContainerState
deriving DecidableEq, Repr

/-- Whether the container was seen running. -/
def RoleStatus.isRunning (status : RoleStatus) : Bool := status.state = some .running

/-- The status of a role whose container is seen as `state`. -/
def Slot.status (slot : Slot) (role : Role) (state : Option ContainerState) : RoleStatus :=
  { role, state
    image := slot.image
    containerId := slot.container.map (·.id)
    phase := slot.phase }

/-- Gives the roles the images of `refs`, one after the other.  Roles are independent, but nothing
is done after a fatal failure. -/
def applyLocked (settings : Settings) (refs : ImageRefs) : List Role → Transaction (List RoleUpdate)
  | [] => return []
  | role :: roles => do
    let result ← compareLocked settings role refs
    if isFatal result then return [⟨role, result⟩]
    else return ⟨role, result⟩ :: (← applyLocked settings refs roles)

/-- Restarts the container of a role if it exited, and tells how many restarts that were.  Failures
are left for the next pass. -/
def reviveLocked (role : Role) : Transaction Nat := do
  let slot ← Transaction.slot role
  match slot.container with
  | none => return 0
  | some handle =>
    let who : List (String × EventValue) := [("role", role.name), ("container_id", handle.id)]
    match ← call (.inspect handle.id) with
    | .ok info =>
      if info.state = .exited then
        log .info "Container exited, restarting" who
        if let .error cause ← call (.restart handle.id) then
          log .warn "Failed to restart container" (who ++ [("error", .text cause.message)])
        return 1
      else
        log .debug "Container alive" (who ++ [("state", .text info.state.name)])
        return 0
    | .error cause =>
      log .warn "Failed to query container" (who ++ [("error", .text cause.message)])
      return 0

/-- Asks the container of a role to stop, and keeps its handle. -/
def stopLocked (role : Role) : Transaction Unit := do
  let slot ← Transaction.slot role
  if let some handle := slot.container then
    let who : List (String × EventValue) := [("role", role.name), ("container_id", handle.id)]
    log .info "Stopping container" who
    if let .error cause ← call (.stop handle.id) then
      log .warn "Failed to stop container" (who ++ [("error", .text cause.message)])

/-- The status of a role, its container asked. -/
def statusLocked (role : Role) : Transaction RoleStatus := do
  let slot ← Transaction.slot role
  match slot.container with
  | none => return slot.status role none
  | some handle =>
    match ← call (.inspect handle.id) with
    | .ok info => return slot.status role (some info.state)
    | .error cause =>
      log .debug "Health query failed" [("role", role.name), ("error", cause.message)]
      return slot.status role none

/-- Restarts containers that exited, and tells how many restarts were asked for; the lock is held
already. -/
def keepAliveLocked (includeUpdater : Bool) : Transaction Nat := do
  let supervisor ← reviveLocked .supervisor
  let updater ← if includeUpdater then reviveLocked .updater else pure 0
  return supervisor + updater

/-- Asks both containers to stop; the lock is held already. -/
def stopAllLocked : Transaction Unit := do
  stopLocked .updater
  stopLocked .supervisor

/-- The status of both roles, the updater first, their containers asked. -/
def statusesLocked : Transaction (List RoleStatus) := Role.all.mapM statusLocked

/-- The roster as it is; the lock is held already. -/
def snapshotLocked : Transaction Roster := do
  return { updater := ← Transaction.slot .updater, supervisor := ← Transaction.slot .supervisor }

/-- Gives a role the image of `refs`, whatever it runs now. -/
def replace (settings : Settings) (role : Role) (refs : ImageRefs) : Transaction Replaced :=
  locked .exclusive (replaceLocked settings role refs)

/-- Gives a role the image of `refs` unless that is the recorded one. -/
def replaceIfChanged (settings : Settings) (role : Role) (refs : ImageRefs) :
    Transaction Replaced :=
  locked .exclusive (compareLocked settings role refs)

/-- Gives several roles the images of `refs` while nobody else changes anything. -/
def apply (settings : Settings) (refs : ImageRefs) (roles : List Role) :
    Transaction (List RoleUpdate) :=
  locked .exclusive (applyLocked settings refs roles)

/-- Restarts containers that exited, and tells how many restarts were asked for. -/
def keepAlive (includeUpdater : Bool) : Transaction Nat :=
  locked .exclusive (keepAliveLocked includeUpdater)

/-- Asks both containers to stop. -/
def stopAll : Transaction Unit := locked .shared stopAllLocked

/-- The status of both roles; while the lock is taken it is the one that is last known. -/
def roleStatuses : Transaction (List RoleStatus) :=
  ifFree statusesLocked do
    let roster ← lastKnown
    return Role.all.map fun role => (roster.slot role).status role none

/-- The roster as it is. -/
def snapshot : Transaction Roster := locked .shared snapshotLocked

/-- An operation on the crew. -/
inductive Operation where
  | replace (role : Role) (refs : ImageRefs)
  | replaceIfChanged (role : Role) (refs : ImageRefs)
  | apply (refs : ImageRefs) (roles : List Role)
  | keepAlive (includeUpdater : Bool)
  | stopAll
  | roleStatuses
  | snapshot
deriving DecidableEq, Repr

/-- What an operation ends with. -/
inductive Result where
  | replaced (result : Replaced)
  | applied (updates : List RoleUpdate)
  | restarts (count : Nat)
  | stopped
  | statuses (roles : List RoleStatus)
  | roster (roster : Roster)
deriving Repr

/-- What an operation does. -/
def Operation.transaction (settings : Settings) : Operation → Transaction Result
  | .replace role refs => .replaced <$> Crew.replace settings role refs
  | .replaceIfChanged role refs => .replaced <$> Crew.replaceIfChanged settings role refs
  | .apply refs roles => .applied <$> Crew.apply settings refs roles
  | .keepAlive includeUpdater => .restarts <$> Crew.keepAlive includeUpdater
  | .stopAll => (fun () => .stopped) <$> Crew.stopAll
  | .roleStatuses => .statuses <$> Crew.roleStatuses
  | .snapshot => .roster <$> Crew.snapshot

end Caretaker.Crew
