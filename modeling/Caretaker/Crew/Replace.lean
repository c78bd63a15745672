import Caretaker.Crew.Request
import Caretaker.Launch
import Caretaker.Registry

/-!
# Replacing a container

A replace stops and removes the old container of a role, makes sure that the new image is there, and
starts and confirms a new container:

    Running(old) → Stopping → Stopped → Pruning → ImageEnsured → Starting → Running(new)

The recorded image changes only when the new container is confirmed.  After a failure it is still
the previous one, so that the next update with the same image tries again.
-/

namespace Caretaker.Crew

/-- How a replace ended that did not fail. -/
inductive Outcome where
  | replaced (image containerId : String)
  /-- The role was given this image already. -/
  | unchanged
deriving DecidableEq, Repr

/-- The result of a replace. -/
abbrev Replaced := Except ReplaceError Outcome

namespace Replace

open Transaction

/-- Moves the slot of a role to a phase that everybody can see. -/
def enter (role : Role) (slot : Slot) (phase : Phase) : Transaction Slot := do
  log .debug "Replace phase" [("role", role.name), ("phase", phase.render)]
  let slot := { slot with phase }
  setSlot role slot
  publish role
  return slot

/-- A call that fails the replace at `step`. -/
def callAt (fault : Container.Fault → ReplaceError) (c : Container.Call) :
    ExceptT ReplaceError (Script signature) c.Value :=
  ExceptT.mk do
    match ← call c with
    | .ok value => return .ok value
    | .error cause => return .error (fault cause)

/-- Stops and removes the container `old` of a role.  A signal that cannot be delivered is
tolerated; once the exit is confirmed the container counts as gone. -/
def teardown (role : Role) (image : String) (slot : Slot) (old : Handle) :
    ExceptT ReplaceError (Script signature) Slot := do
  let fault := fun step => ReplaceError.mk role step image (some old.id)
  let who : List (String × EventValue) :=
    [("role", role.name), ("container_id", old.id), ("name", old.name)]
  let slot ← enter role slot .stopping
  match ← call (.terminate old.id) with
  | .ok () => log .info "Interrupted" who
  | .error cause =>
    log .warn "Error stopping container"
      (who ++ [("step", .text ReplaceStep.terminate.wording), ("error", .text cause.message)])
  callAt (fault .confirmExit) (.awaitExit old.id)
  let slot ← enter role { slot with container := none } .stopped
  let slot ← enter role slot .pruning
  callAt (fault .prune) .prune
  callAt (fault .confirmPrune) (.awaitPrune old.id)
  return slot

/-- The image that is used for a requested one: outside development a release is pulled from the
registry of the settings. -/
def resolve (settings : Settings) (image : String) : Except Registry.Fault String :=
  if settings.development then .ok image else Registry.refIn settings.registry image

/-- Makes sure that the image for a requested one is there, and gives its ref. -/
def ensureImage (settings : Settings) (role : Role) (image : String) :
    Transaction (Except Container.Fault String) := do
  let used ←
    match resolve settings image with
    | .ok used => pure used
    | .error fault =>
      log .warn "Not a registry release ref, using it as is"
        [("role", role.name), ("image_ref", image), ("error", fault.message)]
      pure image
  match ← call (.ensureImage role.name used) with
  | .ok () => return .ok used
  | .error cause =>
    log .warn "Failed to ensure local image"
      [("role", role.name), ("image_ref", used), ("error", cause.message)]
    return .error cause

/-- Starts a container of the used image and confirms it; it is recorded before it is confirmed. -/
def launch (settings : Settings) (role : Role) (refs : ImageRefs) (slot : Slot) (used : String) :
    ExceptT ReplaceError (Script signature) Outcome := do
  let image := refs.of role
  let slot ← enter role slot .starting
  let handle ← callAt (.mk role .start image none) (.start (role.descriptor settings used refs))
  let slot := { slot with container := some handle }
  setSlot role slot
  callAt (.mk role .confirmStart image (some handle.id)) (.awaitStart handle.id)
  log .info "Container running"
    [("role", role.name), ("container_id", handle.id), ("image_ref", used)]
  setSlot role { slot with image := some image, phase := .running image }
  return .replaced image handle.id

/-- The steps of a replace, up to the first that fails. -/
def steps (settings : Settings) (role : Role) (refs : ImageRefs) (slot : Slot) :
    ExceptT ReplaceError (Script signature) Outcome := do
  let image := refs.of role
  let slot ←
    match slot.container with
    | none => pure slot
    | some old => teardown role image slot old
  let used ← ExceptT.mk do
    match ← ensureImage settings role image with
    | .ok used => return .ok used
    | .error cause =>
      return .error (.mk role .ensureImage image none cause)
  let slot ← enter role slot .imageEnsured
  launch settings role refs slot used

end Replace

open Transaction in
/-- Gives a role the image of `refs`, whatever it runs now; the lock is held already. -/
def replaceLocked (settings : Settings) (role : Role) (refs : ImageRefs) :
    Transaction Replaced := do
  let slot ← Transaction.slot role
  log .info "Replacing container"
    [("role", role.name), ("image_ref", refs.of role), ("current", slot.image.getD "none")]
  let result ← (Replace.steps settings role refs slot).run
  if let .error e := result then
    let slot ← Transaction.slot role
    setSlot role { slot with phase := .failed e.step }
  publish role
  return result

open Transaction in
/-- Gives a role the image of `refs` unless that is the recorded one; the lock is held already. -/
def compareLocked (settings : Settings) (role : Role) (refs : ImageRefs) :
    Transaction Replaced := do
  let slot ← Transaction.slot role
  if slot.image = some (refs.of role) then
    log .debug "Already running desired image" [("role", role.name), ("image_ref", refs.of role)]
    return .ok .unchanged
  else replaceLocked settings role refs

end Caretaker.Crew
