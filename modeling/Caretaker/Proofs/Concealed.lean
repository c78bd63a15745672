import Caretaker.Crew.Operation
import Caretaker.Proofs.Alike

/-!
# What shows without the passphrase

The supervisor gets the passphrase in a file of its container.  The descriptor of the container goes
with its handle, so the passphrase is in the roster and in one kind of call.  What is concealed here
is the content of that file and nothing else.

Main definitions:

- `Descriptor.concealed`, `Container.Call.concealed`, `Crew.Roster.concealed`: what shows of them.
- `Container.Call.Matches`: which calls correspond.
- `Container.Blind`: backends whose answers do not depend on the passphrase.

Main statements:

- `Descriptor.same_of_concealed`: nothing else of a descriptor is concealed.
- `Role.descriptor_concealed`: a role's descriptor shows the same whatever the passphrase is.
-/

namespace Caretaker

/-! ## Descriptors, slots and calls -/

/-- The file that holds the passphrase. -/
def passphraseFile : String := "passphrase"

/-- A descriptor without the passphrase: the supervisor's file for it is empty. -/
def Descriptor.concealed (d : Descriptor) : Descriptor :=
  if d.name = Role.supervisor.containerName then
    { d with files := d.files.modify passphraseFile fun _ => [] }
  else d

theorem Dictionary.keys_modify {α : Type} (key : String) (change : α → α) (d : Dictionary α) :
    (d.modify key change).keys = d.keys := by
  simp [keys, modify, Function.comp_def]

namespace Descriptor

variable {d d' : Descriptor}

/-- A descriptor but for its files. -/
def withoutFiles (d : Descriptor) : Descriptor := { d with files := ∅ }

theorem withoutFiles_concealed (d : Descriptor) : d.concealed.withoutFiles = d.withoutFiles := by
  unfold concealed
  split <;> rfl

@[simp] theorem name_concealed (d : Descriptor) : d.concealed.name = d.name := by
  unfold concealed
  split <;> rfl

@[simp] theorem image_concealed (d : Descriptor) : d.concealed.image = d.image := by
  unfold concealed
  split <;> rfl

theorem keys_concealed (d : Descriptor) : d.concealed.files.keys = d.files.keys := by
  unfold concealed
  split
  · exact Dictionary.keys_modify _ _ _
  · rfl

theorem get?_concealed (d : Descriptor) {path : String}
    (h : d.name = Role.supervisor.containerName → path ≠ passphraseFile) :
    d.concealed.files.get? path = d.files.get? path := by
  unfold concealed
  split
  · next hname => exact (Dictionary.get?_modify ..).trans (if_neg (h hname))
  · rfl

/-- Descriptors that show the same have the same files, and differ in the supervisor's passphrase at
most. -/
theorem same_of_concealed (h : d.concealed = d'.concealed) :
    d.withoutFiles = d'.withoutFiles ∧ d.files.keys = d'.files.keys ∧
      ∀ path, (d.name = Role.supervisor.containerName → path ≠ passphraseFile) →
        d.files.get? path = d'.files.get? path := by
  have hname : d.name = d'.name := by rw [← name_concealed d, h, name_concealed]
  refine ⟨?_, ?_, fun path hpath => ?_⟩
  · rw [← withoutFiles_concealed d, h, withoutFiles_concealed d']
  · rw [← keys_concealed d, h, keys_concealed d']
  · rw [← get?_concealed d hpath, h, get?_concealed d' (hname ▸ hpath)]

end Descriptor

/-- Whatever the passphrase is, the descriptor of a role shows the same. -/
theorem Role.descriptor_concealed (role : Role) (settings : Settings) (passphrase image : String)
    (refs : ImageRefs) :
    (role.descriptor { settings with passphrase } image refs).concealed =
      (role.descriptor settings image refs).concealed := by
  cases role with
  | updater => rfl
  | supervisor => rfl

/-- A handle without the passphrase. -/
def Handle.concealed (handle : Handle) : Handle :=
  { handle with descriptor := handle.descriptor.concealed }

theorem Handle.id_of_concealed {handle handle' : Handle}
    (h : handle.concealed = handle'.concealed) : handle.id = handle'.id :=
  (congrArg Handle.id h : handle.concealed.id = handle'.concealed.id)

theorem Handle.name_of_concealed {handle handle' : Handle}
    (h : handle.concealed = handle'.concealed) : handle.name = handle'.name :=
  (congrArg Handle.name h : handle.concealed.name = handle'.concealed.name)

namespace Container

/-- A call without the passphrase. -/
def Call.concealed : Call → Call
  | .start d => .start d.concealed
  | call => call

@[simp] theorem Call.operation_concealed (call : Call) :
    call.concealed.operation = call.operation := by
  cases call <;> rfl

@[simp] theorem Call.target_concealed (call : Call) : call.concealed.target = call.target := by
  cases call with
  | start d => exact d.name_concealed
  | _ => rfl

/-- Which calls correspond, with their answers: the same call with one answer, or starts whose
descriptors and handles show the same. -/
inductive Call.Matches : (c c' : Call) → (c.Answer → c'.Answer → Prop) → Prop where
  | same (c : Call) (h : c.operation ≠ .start) : Matches c c Eq
  | start {d d' : Descriptor} (h : d.concealed = d'.concealed) :
      Matches (.start d) (.start d')
        (SameUpTo fun handle handle' => handle.concealed = handle'.concealed)

theorem Call.Matches.concealed {c c' : Call} {told : c.Answer → c'.Answer → Prop}
    (h : c.Matches c' told) : c.concealed = c'.concealed := by
  cases h with
  | same => rfl
  | start h => exact congrArg Call.start h

/-- Replies that correspond: alike states, and the same in the log. -/
structure Reply.Alike {α α' ρ : Type} (alike : ρ → ρ → Prop) (told : α → α' → Prop)
    (reply : Reply α ρ) (reply' : Reply α' ρ) : Prop where
  answer : told reply.answer reply'.answer
  state : alike reply.state reply'.state
  events : reply.events = reply'.events

/-- A backend that makes no difference between passphrases: to calls that correspond it gives
answers that do. -/
class Blind (ρ : Type) [Backend ρ] where
  /-- Whether two states differ in what they were given for passphrases at most. -/
  alike : ρ → ρ → Prop
  refl : ∀ backend, alike backend backend
  perform : ∀ {c c' : Call} {told : c.Answer → c'.Answer → Prop} {backend backend' : ρ},
    c.Matches c' told → alike backend backend' →
      (Backend.perform c backend).Alike alike told (Backend.perform c' backend')

end Container

namespace Crew

/-- A slot without the passphrase. -/
def Slot.concealed (slot : Slot) : Slot :=
  { slot with container := slot.container.map Handle.concealed }

/-- A roster without the passphrase. -/
def Roster.concealed (roster : Roster) : Roster where
  updater := roster.updater.concealed
  supervisor := roster.supervisor.concealed

theorem Roster.slot_concealed (roster : Roster) (role : Role) :
    roster.concealed.slot role = (roster.slot role).concealed := by
  cases role <;> rfl

theorem Roster.put_concealed (roster : Roster) (role : Role) (slot : Slot) :
    (roster.put role slot).concealed = roster.concealed.put role slot.concealed := by
  cases role <;> rfl

namespace Slot

variable {slot slot' : Slot}

theorem image_of_concealed (h : slot.concealed = slot'.concealed) : slot.image = slot'.image :=
  (congrArg Slot.image h : slot.concealed.image = slot'.concealed.image)

theorem phase_of_concealed (h : slot.concealed = slot'.concealed) : slot.phase = slot'.phase :=
  (congrArg Slot.phase h : slot.concealed.phase = slot'.concealed.phase)

/-- Slots that show the same are both empty, or their containers show the same. -/
theorem cases_of_concealed (h : slot.concealed = slot'.concealed) :
    slot.container = none ∧ slot'.container = none ∨
      ∃ handle handle', slot.container = some handle ∧ slot'.container = some handle' ∧
        handle.concealed = handle'.concealed := by
  have hcontainer : slot.container.map Handle.concealed = slot'.container.map Handle.concealed :=
    congrArg Slot.container h
  cases hslot : slot.container with
  | none =>
    rw [hslot, Option.map_none, eq_comm, Option.map_eq_none_iff] at hcontainer
    exact .inl ⟨rfl, hcontainer⟩
  | some handle =>
    rw [hslot, Option.map_some, eq_comm, Option.map_eq_some_iff] at hcontainer
    obtain ⟨handle', hslot', hhandle⟩ := hcontainer
    exact .inr ⟨handle, handle', rfl, hslot', hhandle.symm⟩

/-- A status tells of a container no more than its id. -/
theorem status_of_concealed (h : slot.concealed = slot'.concealed) (role : Role)
    (state : Option ContainerState) : slot.status role state = slot'.status role state := by
  have hid : slot.container.map (·.id) = slot'.container.map (·.id) := by
    rcases cases_of_concealed h with
      ⟨hnone, hnone'⟩ | ⟨handle, handle', hsome, hsome', hhandle⟩
    · rw [hnone, hnone']
    · rw [hsome, hsome', Option.map_some, Option.map_some, Handle.id_of_concealed hhandle]
  simp only [status, image_of_concealed h, phase_of_concealed h, hid]

end Slot

end Crew
end Caretaker
