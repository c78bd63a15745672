/-!
# Roles

The service keeps two containers: the updater and the supervisor.
-/

namespace Caretaker

/-- What a managed container is there for. -/
inductive Role where
  | updater
  | supervisor
deriving DecidableEq, Repr

namespace Role

/-- The name of a role. -/
def name : Role → String
  | updater => "updater"
  | supervisor => "supervisor"

/-- The name of the container that fills a role. -/
def containerName : Role → String
  | updater => "node-runner-updater"
  | supervisor => "node-runner-supervisor"

/-- The other role. -/
def other : Role → Role
  | updater => supervisor
  | supervisor => updater

/-- Both roles, the updater first. -/
def all : List Role := [updater, supervisor]

instance : ToString Role := ⟨name⟩

theorem containerName_injective {a b : Role} (h : a.containerName = b.containerName) : a = b := by
  revert h
  cases a <;> cases b <;> decide

end Role
end Caretaker
