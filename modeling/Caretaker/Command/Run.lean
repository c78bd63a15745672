import Caretaker.Command.LogFilter
import Caretaker.Container.Memory
import Caretaker.Engine.Scripted
import Caretaker.Service.Simulation

/-!
# Running the command

The command reads its settings, connects to the containers, starts the service, and stops it when it
is told to.  `run` gives what a run shows: the log, the report on standard error, and the exit code.
-/

namespace Caretaker.Command

/-- What tells the command to stop. -/
inductive Signal where
  | terminate
  | interrupt
deriving DecidableEq, Repr

/-- What the command runs in. -/
structure Surroundings where
  /-- The variables by name. -/
  lookup : String → Option String
  /-- Whether there is something at a path. -/
  exists? : String → Bool
  probe : Probe
  /-- The engine behind any socket. -/
  engine : Engine.Scripted
  /-- What stops the command once it is up. -/
  signal : Signal

/-- What a run of the command shows. -/
structure Ending where
  exitCode : Nat
  /-- What was written to standard error. -/
  report : String
  /-- The events that were shown, in order. -/
  events : List Event
  /-- The engine after the run. -/
  engine : Engine.Scripted

/-! ## Reports -/

/-- A text that begins after `lead` and goes on below in lines with `margin` before them. -/
def indented (lead margin : String) (text : String) : String :=
  let lines := Text.splitOn '\n' text.toList
  lead ++ String.ofList (lines.intersperse ('\n' :: margin.toList)).flatten

/-- The causes of an error, one a line; several are numbered. -/
def causeLines : List String → List String
  | [cause] => [indented "    " "    " cause]
  | causes =>
    causes.zipIdx.map fun (cause, i) =>
      let number := toString i
      let blanks := String.ofList (List.replicate (5 - number.length) ' ')
      indented (blanks ++ number ++ ": ") "       " cause

/-- The report on an error and its causes. -/
def errorReport : List String → String
  | [] => ""
  | message :: causes =>
    let lines := if causes.isEmpty then [] else "" :: "Caused by:" :: causeLines causes
    "\n".intercalate (("Error: " ++ message) :: lines) ++ "\n"

/-! ## The log -/

/-- The filter of a run, and what is told about the parts of it that make no sense.  A filter of its
own variable is taken if it makes sense as a whole, and goes before the configured level. -/
def logFilter (lookup : String → Option String) (settings : Settings) : LogFilter × String :=
  match (lookup "RUST_LOG").bind LogFilter.parse? with
  | some filter => (filter, "")
  | none =>
    let (filter, ignored) := LogFilter.parseLeniently settings.logLevel
    (filter, String.join (ignored.map fun part =>
      s!"ignoring \x60{part}\x60: invalid filter directive\n"))

/-- An event of the command. -/
def event (level : Level) (message : String) (fields : List (String × EventValue)) : Event :=
  { level, component := .command, message, fields }

/-- The event at the start of a run. -/
def opening (settings : Settings) : Event :=
  event .info "Starting node runner"
    [("development", .flag settings.development), ("auto_update", .flag settings.autoUpdate),
      ("node_dir", settings.nodeDir), ("health_addr", settings.healthAddress.render)]

/-- How a signal is told. -/
def Signal.event : Signal → Event
  | terminate => Command.event .info "Received SIGTERM" []
  | interrupt => Command.event .info "Received interrupt" []

/-- A value in a line of the log. -/
def valueJson : EventValue → Json
  | .text value => .string value
  | .number value => Json.ofInt value
  | .flag value => .bool value

/-- The line of the log for an event. -/
def logLine (e : Event) : Json :=
  let fields := e.fields.map fun (name, value) => (name, valueJson value)
  .object [("level", .string e.level.name),
    ("fields", .object (("message", .string e.message) :: fields)),
    ("target", .string e.component.target)]

/-! ## The service -/

/-- How the service ended: why it failed if it did, and what was logged. -/
structure ServiceEnding where
  exitCode : Nat := 0
  /-- Why it did not start, with the causes. -/
  error : List String := []
  events : List Event

/-- Stops a service that is up. -/
def stopService [Container.Backend ρ] (signal : Signal) (sim : Service.Simulation ρ) :
    ServiceEnding × ρ :=
  let (_, sim) := sim.sendShutdown true
  let (_, sim) := sim.submit do
    Service.stop
    return .finished
  let (news, sim) := sim.news
  ({ events := signal.event :: news.events
      ++ [event .info "Node runner shutdown complete" []] },
    sim.world.crew.backend)

/-- Starts the service on some containers, and stops it at a signal.  The service ends with an error
that it cannot go on from. -/
def runService [Container.Backend ρ] (settings : Settings) (backend : ρ) (probe : Probe)
    (signal : Signal) : ServiceEnding × ρ :=
  let images := ImageStore.seeded settings.builtInImages
  let sim := Service.Simulation.init settings backend images probe
  let (_, sim) := sim.submit (.started <$> Service.start settings)
  let (news, sim) := sim.news
  let failure := news.results.findSome? fun
    | (_, .started (.error e)) => some e
    | _ => none
  let begun := event .info "Starting service" [("service", "runner")]
  let events := begun :: news.events
  match failure, news.fatal with
  | some e, _ => ({ exitCode := 1, error := e.chain, events }, sim.world.crew.backend)
  | none, e :: _ =>
    let last : Event :=
      { level := .error, component := .service, message := "Fatal runner error, terminating"
        fields := [("error", e.message)] }
    ({ exitCode := 1, events := events ++ [last] }, sim.world.crew.backend)
  | none, [] =>
    let (ending, backend) := stopService signal sim
    ({ ending with events := events ++ ending.events }, backend)

/-- Runs the service on containers in memory or on those of the engine. -/
def runOnContainers (settings : Settings) (s : Surroundings) : ServiceEnding × Engine.Scripted :=
  if (s.lookup "RUNNER_MOCK_RUNTIME").isSome then
    let (ending, _) := runService settings ({} : Container.Memory) s.probe s.signal
    let events := event .info "Using mock container runtime" [] :: ending.events
    ({ ending with events }, s.engine)
  else
    match Engine.connect s.exists? settings.engineSocket with
    | .error fault => ({ exitCode := 1, error := fault.chain, events := [] }, s.engine)
    | .ok () =>
      let (ending, engine) := runService settings s.engine s.probe s.signal
      let missing :=
        if s.exists? settings.engineSocket then []
        else [event .warn "Docker socket not found" [("socket", settings.engineSocket)]]
      ({ ending with events := missing ++ ending.events }, engine)

/-- The variables that a run looks up. -/
def variableNames : List String :=
  ["RUNNER_DEVELOPMENT", "RUNNER_NODE_DIR", "RUNNER_PASSPHRASE", "RUNNER_AUTO_UPDATE_DISABLE",
    "RUNNER_SCAN_JSON_RPC_URL", "RUNNER_TRACE_ENABLED", "RUNNER_TRACE_JSON_RPC_URL",
    "RUNNER_PUBLISH_API_URL", "RUNNER_CONTAINER_REGISTRY", "RUNNER_LOG_LEVEL",
    "RUNNER_MAX_LOG_SIZE", "RUNNER_MAX_LOG_FILES", "RUNNER_SUPERVISOR_IMAGE",
    "RUNNER_UPDATER_IMAGE", "RUNNER_HEALTH_ADDR", "RUNNER_DOCKER_SOCKET",
    "RUNNER_KEEP_ALIVE_INTERVAL", "RUNNER_MOCK_RUNTIME", "RUST_LOG"]

/-- Runs the command. -/
def run (s : Surroundings) : Ending :=
  match Settings.ofLookup s.lookup with
  | .error fault =>
    { exitCode := 1, report := errorReport fault.chain, events := [], engine := s.engine }
  | .ok settings =>
    let (filter, notes) := logFilter s.lookup settings
    let (ending, engine) := runOnContainers settings s
    { exitCode := ending.exitCode
      report := notes ++ errorReport ending.error
      events := (opening settings :: ending.events).filter (filter.shows ·)
      engine }

end Caretaker.Command
