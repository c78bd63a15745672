import Caretaker.Json.Tree
import Caretaker.Role

/-!
# Health

A health report tells of each role whether it is expected to run and whether it does.  The service
is healthy when every expected role runs.  Reports are served under `/health`, and `/livez` tells
that the service is there at all.
-/

namespace Caretaker

/-- The health of one role. -/
structure RoleHealth where
  role : String
  /-- Whether the role should run in this deployment. -/
  expected : Bool
  running : Bool
  image : Option String := none
  containerId : Option String := none
  state : Option String := none
deriving DecidableEq, Repr

/-- A health report. -/
structure HealthReport where
  roles : List RoleHealth
deriving DecidableEq, Repr

namespace HealthReport

/-- Whether every expected role runs. -/
def isHealthy (report : HealthReport) : Bool := report.roles.all fun r => !r.expected || r.running

/-- The word for the health of the service. -/
def status (report : HealthReport) : String := if report.isHealthy then "ok" else "degraded"

/-- The version of the service. -/
def version : String := "0.1.0"

/-- The health of a role as JSON; what is not known is left out. -/
def roleJson (r : RoleHealth) : Json :=
  let known := fun (name : String) (value : Option String) =>
    (value.map fun text => (name, Json.Tree.string text)).toList
  .object ([("role", .string r.role), ("expected", .bool r.expected), ("running", .bool r.running)]
    ++ known "image_ref" r.image ++ known "container_id" r.containerId ++ known "state" r.state)

/-- A report as JSON, made at `timestamp`. -/
def toJson (timestamp : String) (report : HealthReport) : Json :=
  .object [
    ("status", .string report.status),
    ("service", .string "node-runner"),
    ("version", .string version),
    ("timestamp", .string timestamp),
    ("roles", .array (report.roles.map roleJson))]

end HealthReport

namespace Health

/-- The part of a request's target that names a resource. -/
def resource (target : String) : String :=
  String.ofList (target.toList.takeWhile fun c => !(c == '?' || c == '#'))

/-- Where a request goes. -/
inductive Route where
  /-- A report is asked for; with `HEAD` the answer has no body. -/
  | report (bodyless : Bool)
  | alive
  | methodNotAllowed
  | notFound
deriving DecidableEq, Repr

/-- The route of a method and a target. -/
def route (method target : String) : Route :=
  let path := resource target
  if path == "/health" then
    if method == "GET" then .report false
    else if method == "HEAD" then .report true
    else .methodNotAllowed
  else if path == "/livez" then
    if method == "GET" || method == "HEAD" then .alive else .methodNotAllowed
  else .notFound

/-- The answer to a request. -/
structure Response where
  status : Nat
  contentType : Option String := none
  allow : Option String := none
  body : Option Json := none
deriving BEq, Repr

/-- The answer to a request for a report: 503 when the service is degraded. -/
def reportResponse (bodyless : Bool) (timestamp : String) (report : HealthReport) : Response :=
  { status := if report.isHealthy then 200 else 503
    contentType := some "application/json"
    body := if bodyless then none else some (report.toJson timestamp) }

/-- The answer to a request, given a report for the case that one is asked for. -/
def respond (timestamp : String) (report : HealthReport) : Route → Response
  | .report bodyless => reportResponse bodyless timestamp report
  | .alive => { status := 200 }
  | .methodNotAllowed => { status := 405, allow := some "GET,HEAD" }
  | .notFound => { status := 404 }

end Health
end Caretaker
