/-!
# Log events

What the service does is told in events: a level, the component that speaks, a message and named
values.
-/

namespace Caretaker

/-- How much an event matters; `trace` is the most detailed level. -/
inductive Level where
  | trace
  | debug
  | info
  | warn
  | error
deriving DecidableEq, Repr

namespace Level

/-- The name of a level in an event. -/
def name : Level → String
  | trace => "TRACE"
  | debug => "DEBUG"
  | info => "INFO"
  | warn => "WARN"
  | error => "ERROR"

/-- The rank of a level, larger for what matters more. -/
def rank : Level → Nat
  | trace => 1
  | debug => 2
  | info => 3
  | warn => 4
  | error => 5

end Level

/-- A part of the service that emits events. -/
inductive Component where
  | command
  | startup
  | crew
  | service
  | health
  | probe
  | engine
  | memory
deriving DecidableEq, Repr

/-- The target under which the events of a component are filtered. -/
def Component.target : Component → String
  | command => "node_runner"
  | startup => "node_runner::startup"
  | crew => "node_runner::state"
  | service => "node_runner::runner"
  | health => "node_runner::health"
  | probe => "node_runner::probes"
  | engine => "node_runner::runtime::docker"
  | memory => "node_runner::runtime::mock"

/-- A value in an event. -/
inductive EventValue where
  | text (value : String)
  | number (value : Int)
  | flag (value : Bool)
deriving DecidableEq, Repr

/-- A value as text. -/
def EventValue.render : EventValue → String
  | text value => value
  | number value => toString value
  | flag value => toString value

instance : Coe String EventValue := ⟨.text⟩

/-- Something that happened, as the log tells it. -/
structure Event where
  level : Level
  component : Component
  message : String
  fields : List (String × EventValue) := []
deriving DecidableEq, Repr

end Caretaker
