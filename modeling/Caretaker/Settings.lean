import Caretaker.Text.Number
import Caretaker.Net.SocketAddress

/-!
# Settings

The service is set up by variables that are looked up by name.  Each has a default; three of them
can be malformed, and the first of these in a fixed order is reported.
-/

namespace Caretaker

/-- How the service is set up. -/
structure Settings where
  /-- Images are local builds, used as they are named. -/
  development : Bool
  /-- The directory of the host that both containers see. -/
  nodeDir : String
  /-- The passphrase handed to the supervisor. -/
  passphrase : String
  /-- Whether the updater runs and follows new images. -/
  autoUpdate : Bool
  /-- The JSON-RPC endpoint that is scanned. -/
  scanUrl : String
  traceEnabled : Bool
  /-- The JSON-RPC endpoint for traces. -/
  traceUrl : String
  /-- The base of the alert batch API. -/
  publishUrl : String
  /-- The registry that release images are pulled from. -/
  registry : String
  logLevel : String
  /-- The size at which a log file of a container is rotated. -/
  maxLogSize : String
  /-- How many log files of a container are kept. -/
  maxLogFiles : Nat
  /-- The image of the supervisor that is built in. -/
  supervisorImage : String
  /-- The image of the updater that is built in. -/
  updaterImage : String
  /-- Where health is served. -/
  healthAddress : Net.SocketAddress
  /-- The socket of the container engine. -/
  engineSocket : String
  /-- Seconds between two keep-alive passes. -/
  keepAliveSeconds : Nat
deriving DecidableEq, Repr

namespace Settings

/-- A malformed variable. -/
inductive Fault where
  | logFiles (cause : Text.NumberFault)
  | healthAddress
  | keepAlive (cause : Text.NumberFault)
  | keepAliveZero
deriving DecidableEq, Repr

namespace Fault

/-- What is wrong, then why, if there is more to say. -/
def chain : Fault → List String
  | logFiles cause => ["RUNNER_MAX_LOG_FILES must be a non-negative integer", cause.message]
  | healthAddress =>
    ["RUNNER_HEALTH_ADDR must be a socket address", "invalid socket address syntax"]
  | keepAlive cause => ["RUNNER_KEEP_ALIVE_INTERVAL must be a number of seconds", cause.message]
  | keepAliveZero => ["RUNNER_KEEP_ALIVE_INTERVAL must be greater than zero"]

/-- The wording of a fault in one line. -/
def message (fault : Fault) : String := ": ".intercalate fault.chain

end Fault

/-- A variable that switches something on: `1`, or `true` in any case. -/
def isOn (value : String) : Bool :=
  value == "1" || String.ofList (value.toList.map Char.toLower) == "true"

/-- The settings that a lookup of variables describes. -/
def ofLookup (lookup : String → Option String) : Except Fault Settings := do
  let var := fun name default => (lookup name).getD default
  let flag := fun name => (lookup name).any isOn
  let maxLogFiles ←
    (Text.readNumber 10 Text.maxU32 (var "RUNNER_MAX_LOG_FILES" "10").toList).mapError .logFiles
  let healthAddress ←
    match Net.SocketAddress.parse? (var "RUNNER_HEALTH_ADDR" "0.0.0.0:8090") with
    | some address => .ok address
    | none => .error .healthAddress
  let keepAliveSeconds ←
    (Text.readNumber 10 Text.maxU64 (var "RUNNER_KEEP_ALIVE_INTERVAL" "10").toList).mapError
      .keepAlive
  if keepAliveSeconds = 0 then .error .keepAliveZero
  return {
    development := flag "RUNNER_DEVELOPMENT"
    nodeDir := var "RUNNER_NODE_DIR" "/var/lib/node-runner"
    passphrase := var "RUNNER_PASSPHRASE" ""
    autoUpdate := !flag "RUNNER_AUTO_UPDATE_DISABLE"
    scanUrl := var "RUNNER_SCAN_JSON_RPC_URL" "http://localhost:8545"
    traceEnabled := flag "RUNNER_TRACE_ENABLED"
    traceUrl := var "RUNNER_TRACE_JSON_RPC_URL" ""
    publishUrl := var "RUNNER_PUBLISH_API_URL" "http://localhost:8080"
    registry := var "RUNNER_CONTAINER_REGISTRY" "localhost:1970"
    logLevel := var "RUNNER_LOG_LEVEL" "info"
    maxLogSize := var "RUNNER_MAX_LOG_SIZE" "50m"
    maxLogFiles
    supervisorImage := var "RUNNER_SUPERVISOR_IMAGE" "node-runner/supervisor:latest"
    updaterImage := var "RUNNER_UPDATER_IMAGE" "node-runner/updater:latest"
    healthAddress
    engineSocket := var "RUNNER_DOCKER_SOCKET" "/var/run/docker.sock"
    keepAliveSeconds }

end Settings
end Caretaker
