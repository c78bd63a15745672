import Caretaker.Health
import Caretaker.Service.Startup

/-!
# Starting, and what goes on in the background

The service starts in stages and stops at the first that fails: the check, the removal of leftover
containers, serving health, launching one built-in image.  With auto-update the updates follow the
image stream from then on; the keep-alive passes begin last.
-/

namespace Caretaker.Service

open Service.Action

/-- Launches the built-in image of a role. -/
def launchEmbedded (settings : Settings) (role : Role) : Action (Except ServiceError Unit) := do
  let refs ← ask .embeddedImages
  log .service .info "Launching embedded image"
    [("role", role.name), ("supervisor", refs.supervisor), ("updater", refs.updater)]
  match ← ofCrew (Crew.replace settings role refs) with
  | .ok _ => return .ok ()
  | .error cause => return .error (.embeddedLaunch role cause)

/-- Launches what this deployment starts with, and the updates if there are any. -/
def launchFirst (settings : Settings) : Action (Except ServiceError Unit) := do
  if settings.autoUpdate then
    match ← launchEmbedded settings .updater with
    | .error e => return .error e
    | .ok () =>
      match ← ask .takeImages with
      | .error cause => return .error (.images cause)
      | .ok () =>
        ask (.spawn .updates)
        return .ok ()
  else
    log .service .info "Auto-update disabled, running embedded supervisor only" []
    launchEmbedded settings .supervisor

/-- Starts the service. -/
def start (settings : Settings) : Action (Except ServiceError Unit) := do
  match ← startupCheck settings with
  | .error cause => return .error (.startup cause)
  | .ok () =>
    match ← call .nuke with
    | .error cause => return .error (.leftovers cause)
    | .ok () =>
      ask (.spawn .health)
      match ← launchFirst settings with
      | .error e => return .error e
      | .ok () =>
        ask (.spawn .keepAlive)
        return .ok ()

/-- Asks both containers to stop. -/
def stop : Action Unit := ofCrew Crew.stopAll

/-- Waits until the updates end, if they began and nobody else waits for them. -/
def joinUpdates : Action Unit := do
  if ← ask .claimUpdates then ask .awaitUpdates

/-! ## Updates -/

/-- Tells what became of the roles, and whether the service can go on: not after a fatal failure. -/
def concludeUpdate : List Crew.RoleUpdate → Action Bool
  | [] => return true
  | { role, result } :: updates => do
    match result with
    | .ok (.replaced image containerId) =>
      log .service .info "Replaced container"
        [("role", role.name), ("image_ref", image), ("container_id", containerId)]
      concludeUpdate updates
    | .ok .unchanged =>
      if role = .supervisor then log .service .info "Skipping supervisor launch for now" []
      else log .service .debug "Image unchanged" [("role", role.name)]
      concludeUpdate updates
    | .error e =>
      if e.isFatal then
        ask (.fatal (.replace e))
        return false
      else
        log .service .error "Replace failed, waiting for the next update" [("error", e.message)]
        concludeUpdate updates

/-- One round of the updates: the next images of the stream are applied, the updater first. -/
def updatesRound (settings : Settings) : Action Next := do
  match ← ask .nextImages with
  | none =>
    log .service .info "Image stream closed, update loop exiting" []
    ask .leaveImages
    return none
  | some refs =>
    log .service .info "Detected new images"
      [("supervisor", refs.supervisor), ("updater", refs.updater),
        ("commit", refs.commit?.getD "")]
    let updates ← ofCrew (Crew.apply settings refs [.updater, .supervisor])
    if ← concludeUpdate updates then return some .updatesFrom
    else
      ask .leaveImages
      return none

/-! ## Keep-alive passes -/

/-- Milliseconds between two passes. -/
def interval (settings : Settings) : Nat := settings.keepAliveSeconds * 1000

/-- One round of the keep-alive passes: a pass at a tick, or the end at a shutdown.  The next tick
is one interval after this one, however late the pass was. -/
def keepAliveRound (settings : Settings) (nextTick seen : Nat) : Action Next := do
  match ← ask (.tickOrShutdown nextTick seen) with
  | .tick =>
    let restarts ← ofCrew (Crew.keepAlive settings.autoUpdate)
    if 0 < restarts then
      log .service .info "Keep-alive restarted containers" [("restarts", .number restarts)]
    return some (.keepAliveFrom (nextTick + interval settings) seen)
  | .shutdown news =>
    if news.endsWatch then
      log .service .info "Keep-alive loop shutting down" []
      return none
    else
      match news with
      | .changed sent _ => return some (.keepAliveFrom nextTick sent)
      | .closed => return none

/-! ## Health -/

/-- Begins to serve health. -/
def listen (settings : Settings) : Action Next := do
  let address := settings.healthAddress
  if ← ask (.listen address) then
    log .health .info "Health server listening" [("addr", address.render)]
    return some (.healthFrom 0)
  else
    log .health .error "Health server error" [("error", s!"failed to bind {address.render}")]
    return none

/-- Serves health until the next news of the shutdown signal. -/
def healthRound (settings : Settings) (seen : Nat) : Action Next := do
  let news ← ask (.shutdown seen)
  match news with
  | .changed sent false => return some (.healthFrom sent)
  | _ =>
    ask (.leave settings.healthAddress)
    return none

/-- The health of a role in this deployment. -/
def roleHealth (settings : Settings) (status : Crew.RoleStatus) : RoleHealth where
  role := status.role.name
  expected := status.role = .supervisor || settings.autoUpdate
  running := status.isRunning
  image := status.image
  containerId := status.containerId
  state := status.state.map (·.name)

/-- A report on the health of the roles. -/
def checkHealth (settings : Settings) : Action HealthReport := do
  let statuses ← ofCrew Crew.roleStatuses
  return { roles := statuses.map (roleHealth settings) }

/-- Answers a request to the health server, with the time `timestamp`. -/
def serve (settings : Settings) (timestamp method target : String) : Action Health.Response := do
  match Health.route method target with
  | .report bodyless => return Health.reportResponse bodyless timestamp (← checkHealth settings)
  | route => return Health.respond timestamp { roles := [] } route

/-! ## Rounds -/

/-- One round of an activity. -/
def Activity.round (settings : Settings) : Activity → Action Next
  | .updates => do
    log .service .info "Watching for new images" []
    return some .updatesFrom
  | .updatesFrom => updatesRound settings
  | .keepAlive => do
    let now ← ask .now
    log .service .info "Starting keep-alive loop"
      [("interval_secs", .number settings.keepAliveSeconds)]
    return some (.keepAliveFrom (now + interval settings) 0)
  | .keepAliveFrom nextTick seen => keepAliveRound settings nextTick seen
  | .health => listen settings
  | .healthFrom seen => healthRound settings seen

end Caretaker.Service
