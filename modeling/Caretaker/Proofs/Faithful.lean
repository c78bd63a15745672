import Caretaker.Container.Memory
import Caretaker.Engine.Scripted
import Caretaker.Proofs.Account

/-!
# Backends that start what they are told to

Containers in memory and the container engine both give handles of what was started, under its name.
-/

namespace Caretaker

open Container (Memory)
open Crew (FaithfulStart)

theorem Container.Memory.faithful : FaithfulStart Memory := by
  intro descriptor m handle h
  change (Memory.perform (.start descriptor) m).answer = .ok handle at h
  unfold Memory.perform at h
  dsimp only at h
  split at h
  · cases h
  · cases h
    exact ⟨rfl, rfl⟩

namespace Engine

open Script

/-- A script that can fail yields what its last part does, if it comes that far. -/
theorem yields_run_bind {α β : Type} {post : β → Prop} (script : Fallible α) {f : α → Fallible β}
    (h : ∀ value, (f value).run.Yields fun result => ∀ v, result = .ok v → post v) :
    (script >>= f).run.Yields fun result => ∀ v, result = .ok v → post v := by
  rw [ExceptT.run_bind]
  refine yields_bind _ fun result => ?_
  cases result with
  | ok value => exact h value
  | error cause =>
    intro v hv
    cases hv

/-- However the engine answers, the handle of a container that was started is of its descriptor. -/
theorem yields_start (descriptor : Descriptor) :
    (start descriptor).run.Yields fun result => ∀ handle, result = .ok handle →
      handle.name = descriptor.name ∧ handle.descriptor = descriptor := by
  unfold start
  repeat refine yields_run_bind _ fun _ => ?_
  intro handle hhandle
  cases hhandle
  exact ⟨rfl, rfl⟩

theorem Scripted.faithful : FaithfulStart Scripted := by
  intro descriptor e handle h
  exact (yields_start descriptor).run Scripted.answer _ handle h

end Engine
end Caretaker
