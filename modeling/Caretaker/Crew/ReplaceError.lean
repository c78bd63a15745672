import Caretaker.Container.Fault
import Caretaker.Role

/-!
# Failed replaces

A replace fails at one of its steps.  The step decides how bad that is: after some steps it is not
known what runs under the role, and nobody should touch the containers any more.
-/

namespace Caretaker

/-- How an error has to be met. -/
inductive Severity where
  /-- A role is in an unknown state: the service must end. -/
  | fatal
  /-- The role is down or behind, but known: the next update tries again. -/
  | recoverable
deriving DecidableEq, Repr

/-- The name of a severity. -/
def Severity.name : Severity → String
  | fatal => "fatal"
  | recoverable => "recoverable"

/-- A step of a replace. -/
inductive ReplaceStep where
  | terminate
  | confirmExit
  | prune
  | confirmPrune
  | ensureImage
  | start
  | confirmStart
deriving DecidableEq, Repr

namespace ReplaceStep

/-- Every step, in order. -/
def all : List ReplaceStep :=
  [terminate, confirmExit, prune, confirmPrune, ensureImage, start, confirmStart]

/-- The wording of a step. -/
def wording : ReplaceStep → String
  | terminate => "terminate"
  | confirmExit => "confirm exit"
  | prune => "prune"
  | confirmPrune => "confirm prune"
  | ensureImage => "ensure image"
  | start => "start"
  | confirmStart => "confirm start"

/-- The name of a step as a constant. -/
def name : ReplaceStep → String
  | terminate => "Terminate"
  | confirmExit => "ConfirmExit"
  | prune => "Prune"
  | confirmPrune => "ConfirmPrune"
  | ensureImage => "EnsureImage"
  | start => "StartCommand"
  | confirmStart => "ConfirmStart"

/-- The step of that name. -/
def ofName? (name : String) : Option ReplaceStep := all.find? (·.name == name)

/-- A failure is fatal where it leaves unknown whether a container still runs. -/
def severity : ReplaceStep → Severity
  | confirmExit | prune | confirmPrune | confirmStart => .fatal
  | terminate | ensureImage | start => .recoverable

end ReplaceStep

/-- A replace that failed. -/
structure ReplaceError where
  role : Role
  step : ReplaceStep
  /-- The image that was asked for. -/
  image : String
  /-- The container the failed step was about, if there was one. -/
  containerId : Option String
  cause : Container.Fault
deriving DecidableEq, Repr

namespace ReplaceError

/-- How bad it is that a replace failed. -/
def severity (e : ReplaceError) : Severity := e.step.severity

/-- Whether nobody should touch the containers any more. -/
def isFatal (e : ReplaceError) : Bool := e.severity = .fatal

/-- The wording of a failed replace. -/
def message (e : ReplaceError) : String :=
  let container := e.containerId.getD "none"
  s!"failed to replace {e.role.name} ({e.step.wording} failed, image={e.image}, "
    ++ s!"container={container}): {e.cause.message}"

/-- The wording of a failed replace and of its causes. -/
def chain (e : ReplaceError) : List String := e.message :: e.cause.chain

end ReplaceError
end Caretaker
