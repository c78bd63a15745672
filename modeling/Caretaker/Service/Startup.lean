import Caretaker.Service.Request
import Caretaker.Text.Split

/-!
# The check at the start

What the service depends on is checked in order, and the first failure counts: the containers can be
listed, the scan endpoint answers, the trace endpoint answers if tracing is enabled, and the batch
API takes a test batch.
-/

namespace Caretaker.Service

open Service.Action

/-- The name by which containers reach their host; on the host itself it means nothing. -/
def hostAlias : String := "host.docker.internal"

/-- The URL under which the host itself reaches what containers reach under `url`. -/
def hostUrl (url : String) : String :=
  String.ofList (Text.replaceAll hostAlias.toList "localhost".toList url.toList)

/-- Puts a check to the probe. -/
def check (c : Check) : Action (Except Probe.Fault c.Value) := ask (.check c)

/-- Checks what the service depends on. -/
def startupCheck (settings : Settings) : Action (Except StartupError Unit) := do
  match ← call .list with
  | .error cause => return .error (.containers cause)
  | .ok containers =>
    log .startup .debug "Container runtime reachable" [("containers", .number containers.length)]
    match ← check (.rpc (hostUrl settings.scanUrl)) with
    | .error cause => return .error (.scan cause)
    | .ok block =>
      log .startup .debug "Scan JSON-RPC reachable" [("block", .number block)]
      match ← checkTrace with
      | .error e => return .error e
      | .ok () =>
        match ← check (.batch settings.publishUrl) with
        | .error cause => return .error (.batch cause)
        | .ok () =>
          log .startup .info "Start-up check successful" []
          return .ok ()
where
  /-- Checks the trace endpoint, if tracing is enabled. -/
  checkTrace : Action (Except StartupError Unit) := do
    if settings.traceEnabled then
      match ← check (.rpc (hostUrl settings.traceUrl)) with
      | .error cause => return .error (.trace cause)
      | .ok block =>
        log .startup .debug "Trace JSON-RPC reachable" [("block", .number block)]
        return .ok ()
    else return .ok ()

end Caretaker.Service
