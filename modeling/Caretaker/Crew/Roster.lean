import Caretaker.Container.Basic
import Caretaker.Crew.ReplaceError
import Caretaker.Text.Quoted

/-!
# The roster

What is known about the two roles: for each the image it was last given, the container that fills it
and the phase it is in.
-/

namespace Caretaker.Crew

/-- Where a role is in its life. -/
inductive Phase where
  /-- Nothing was launched yet. -/
  | idle
  | running (image : String)
  | stopping
  | stopped
  | pruning
  | imageEnsured
  | starting
  /-- The last replace failed at this step. -/
  | failed (step : ReplaceStep)
deriving DecidableEq, Repr

/-- A phase as the log shows it. -/
def Phase.render : Phase → String
  | idle => "Idle"
  | running image => s!"Running({Text.quoted image})"
  | stopping => "Stopping"
  | stopped => "Stopped"
  | pruning => "Pruning"
  | imageEnsured => "ImageEnsured"
  | starting => "Starting"
  | failed step => s!"Failed({step.name})"

/-- What is known about one role. -/
structure Slot where
  /-- The image of the latest replace that succeeded, as it was asked for. -/
  image : Option String := none
  container : Option Handle := none
  phase : Phase := .idle
deriving DecidableEq, Repr

/-- What is known about both roles. -/
structure Roster where
  updater : Slot := {}
  supervisor : Slot := {}
deriving DecidableEq, Repr

namespace Roster

/-- The slot of a role. -/
def slot (roster : Roster) : Role → Slot
  | .updater => roster.updater
  | .supervisor => roster.supervisor

/-- The roster with another slot for a role. -/
def put (roster : Roster) (role : Role) (slot : Slot) : Roster :=
  match role with
  | .updater => { roster with updater := slot }
  | .supervisor => { roster with supervisor := slot }

@[simp] theorem slot_put_self (roster : Roster) (role : Role) (slot : Slot) :
    (roster.put role slot).slot role = slot := by
  cases role <;> rfl

@[simp] theorem slot_put_other (roster : Roster) (role : Role) (slot : Slot) :
    (roster.put role slot).slot role.other = roster.slot role.other := by
  cases role <;> rfl

theorem slot_put_ne {role other : Role} (roster : Roster) (slot : Slot) (h : other ≠ role) :
    (roster.put role slot).slot other = roster.slot other := by
  revert h
  cases role <;> cases other <;> simp [Roster.put, Roster.slot]

@[simp] theorem put_put (roster : Roster) (role : Role) (first second : Slot) :
    (roster.put role first).put role second = roster.put role second := by
  cases role <;> rfl

@[simp] theorem put_slot (roster : Roster) (role : Role) :
    roster.put role (roster.slot role) = roster := by
  cases role <;> rfl

theorem ext_slot {a b : Roster} (h : ∀ role, a.slot role = b.slot role) : a = b := by
  cases a
  cases b
  simpa [slot] using And.intro (h .updater) (h .supervisor)

end Roster
end Caretaker.Crew
