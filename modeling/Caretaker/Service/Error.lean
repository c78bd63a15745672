import Caretaker.Crew.ReplaceError
import Caretaker.Images.Store
import Caretaker.Probe

/-!
# Errors of the service

Why the service did not start, or cannot go on.
-/

namespace Caretaker

/-- A check at the start that failed. -/
inductive StartupError where
  | containers (cause : Container.Fault)
  | scan (cause : Probe.Fault)
  | trace (cause : Probe.Fault)
  | batch (cause : Probe.Fault)
deriving DecidableEq, Repr

namespace StartupError

/-- The wording of a failed check. -/
def message : StartupError → String
  | containers cause => s!"docker check failed (get containers): {cause.message}"
  | scan cause => s!"scan api check failed: {cause.message}"
  | trace cause => s!"trace api check failed: {cause.message}"
  | batch cause => s!"batch api check failed: {cause.message}"

/-- The wording of a failed check and of its causes. -/
def chain (e : StartupError) : List String :=
  e.message ::
    match e with
    | containers cause => cause.chain
    | scan cause | trace cause | batch cause => cause.chain

end StartupError

/-- Why the service did not start, or cannot go on. -/
inductive ServiceError where
  | startup (cause : StartupError)
  /-- Containers that were left over could not be asked for. -/
  | leftovers (cause : Container.Fault)
  | embeddedLaunch (role : Role) (cause : ReplaceError)
  | replace (cause : ReplaceError)
  | images (cause : ImageFault)
deriving DecidableEq, Repr

namespace ServiceError

/-- Only a failed replace may be recoverable. -/
def severity : ServiceError → Severity
  | replace cause => cause.severity
  | _ => .fatal

/-- The wording of an error. -/
def message : ServiceError → String
  | startup cause => s!"start-up check failed: {cause.message}"
  | leftovers cause => s!"failed to nuke leftover containers at start: {cause.message}"
  | embeddedLaunch role cause => s!"failed to launch embedded {role.name}: {cause.message}"
  | replace cause => cause.message
  | images cause => s!"image updates unavailable: {cause.message}"

/-- The wording of an error and of its causes; a failed replace speaks for itself. -/
def chain (e : ServiceError) : List String :=
  match e with
  | startup cause => e.message :: cause.chain
  | leftovers cause => e.message :: cause.chain
  | embeddedLaunch _ cause => e.message :: cause.chain
  | replace cause => cause.chain
  | images cause => [e.message, cause.message]

end ServiceError
end Caretaker
