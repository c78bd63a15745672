import Caretaker.Proofs.Revive
import Caretaker.Proofs.UpdatesEnd

/-!
# The rounds of a quiet service

Between two events a service waits: for images, for the next tick of the keep-alive passes, and for
news of the shutdown signal.  A tick lets it make one pass, whatever else waits.

Main statements:

- `completes_keepAliveRound`: what a pass does.
- `completes_checkHealth`: who asks for a report on health need not wait.
- `Simulation.change_tick`: what a service does at a tick.
- `Simulation.submit_of_completes`: what comes of something that need not wait.
-/

namespace Caretaker.Service

open Container (Backend)
open Crew (Account Performed)
open Script
open Caretaker.Service.Action (ofCrew)

variable {ρ : Type} [Backend ρ] {settings : Settings} {who number next seen : Nat} {w : World ρ}

/-! ## Tasks that wait -/

/-- Who serves health waits for news of the shutdown signal. -/
theorem patient_health (hnews : w.shutdown.news? seen = none) :
    Patient settings w ((Activity.healthFrom seen).task settings number) := by
  intro w' _ hshutdown
  show (w'.shutdown.news? seen).isSome = false
  rw [hshutdown, hnews]
  rfl

/-- There is time between two ticks. -/
theorem lt_add_interval (hinterval : 0 < settings.keepAliveSeconds) (clock : Nat) :
    clock < clock + interval settings := by
  unfold interval
  omega

/-- The keep-alive passes wait for their tick, or for news of the shutdown signal. -/
theorem attempt_tick (hnews : w.shutdown.news? seen = none) (hdue : w.clock < next) :
    w.attempt who (.tickOrShutdown next seen) = (none, w) := by
  simp [World.attempt, hnews, Nat.not_le_of_lt hdue]

theorem patient_keepAlive (hnews : w.shutdown.news? seen = none) (hdue : w.clock < next) :
    Patient settings w ((Activity.keepAliveFrom next seen).task settings number) := by
  intro w' hclock hshutdown
  show (w'.attempt number (.tickOrShutdown next seen)).1.isSome = false
  rw [attempt_tick (by rw [hshutdown, hnews]) (by rw [hclock]; exact hdue)]
  rfl

/-! ## A pass -/

/-- At a tick the keep-alive loop makes a pass, and goes on to the next tick. -/
theorem completes_keepAliveRound (settings : Settings) (who seen : Nat)
    (hclear : Clear w) (hdue : next ≤ w.clock) :
    ∃ restarts calls crew, Crew.Pass w.crew.roster settings.autoUpdate restarts calls ∧
      Performed (fun _ _ => False) w.crew.backend calls crew.backend ∧
      crew.roster = w.crew.roster ∧ Clear { w with crew } ∧
      (keepAliveRound settings next seen).Completes (World.attempt who) w
        (some (.keepAliveFrom (next + interval settings) seen)) { w with crew } := by
  let body := Crew.keepAliveLocked settings.autoUpdate
  let restarts := (body.run w.crew).1
  let passed := (body.run w.crew).2
  have htick : w.attempt who (.tickOrShutdown next seen) = (some .tick, w) := by
    simp [World.attempt, hdue]
  have hensures := Crew.ensures_keepAliveLocked (s := w.crew.account) settings.autoUpdate
  have hpass : (ofCrew (Crew.keepAlive settings.autoUpdate)).Completes (World.attempt who) w
      restarts { w with crew := passed } :=
    completes_locked .exclusive hclear.lock hclear.gated hensures
  obtain ⟨account, hfits, calls, hcalls, rfl⟩ : ∃ s : Account,
      s.Fits (fun _ _ => False) w.crew.backend passed ∧
        ∃ calls, Crew.Pass w.crew.roster settings.autoUpdate restarts calls ∧
          s = w.crew.account.calling calls :=
    Crew.Transaction.ensures_run hensures
  have hlock : passed.lock = {} := (Crew.World.lock_run body w.crew).trans hclear.lock
  have hgated : passed.gated = [] := (Crew.World.gated_run body w.crew).trans hclear.gated
  obtain ⟨events, hround⟩ : ∃ events,
      (keepAliveRound settings next seen).Completes (World.attempt who) w
        (some (.keepAliveFrom (next + interval settings) seen))
        { w with crew := { passed with events } } := by
    -- The number of restarts is told if there were any.
    by_cases hrestarts : 0 < restarts
    · let told := passed.tell
        { level := .info, component := .service, message := "Keep-alive restarted containers"
          fields := [("restarts", .number restarts)] }
      refine ⟨told.events, (completes_ask htick).2 (hpass.bind ?_)⟩
      show (if 0 < restarts then _ else _ : Action Next).Completes _ _ _ _
      rw [if_pos hrestarts]
      exact (completes_log _ _ _ _).bind (completes_done _ _)
    · refine ⟨passed.events, (completes_ask htick).2 (hpass.bind ?_)⟩
      show (if 0 < restarts then _ else _ : Action Next).Completes _ _ _ _
      rw [if_neg hrestarts]
      exact completes_done _ _
  exact ⟨restarts, calls, { passed with events }, hcalls, hfits.calls, hfits.roster,
    ⟨hlock, hgated, hclear.spawned⟩, hround⟩

/-! ## Health -/

/-- A report on the health of the roles is made at once. -/
theorem completes_checkHealth (settings : Settings) (who : Nat) (hclear : Clear w) :
    (checkHealth settings).Completes (World.attempt who) w
      { roles := (Crew.statusesLocked.run w.crew).1.map (roleHealth settings) }
      { w with crew := (Crew.statusesLocked.run w.crew).2 } := by
  have hbody := ensures_map.1
    (Crew.Operation.ensures_unlocking settings .roleStatuses w.crew.account)
  have hstatuses : (ofCrew Crew.roleStatuses).Completes (World.attempt who) w
      (Crew.statusesLocked.run w.crew).1 { w with crew := (Crew.statusesLocked.run w.crew).2 } :=
    completes_ifFree _ hclear.lock hclear.gated hbody
  exact hstatuses.bind (completes_done _ _)

/-! ## A tick -/

/-- A task that is due makes its pass and waits for the next tick. -/
theorem settle_pass {pool : Pool signature (World ρ) Ending}
    {ready : List (Task signature Ending)}
    (hready : pool.ready = (Activity.keepAliveFrom next seen).task settings number :: ready)
    (hidle : ∀ crew, ∀ task ∈ pool.waiting,
      Pool.canGoOn (World.host ρ settings) { pool.world with crew } task = false)
    (hclear : Clear pool.world) (hnews : pool.world.shutdown.news? seen = none)
    (hdue : next ≤ pool.world.clock) (hlater : pool.world.clock < next + interval settings) :
    ∃ restarts calls crew,
      Crew.Pass pool.world.crew.roster settings.autoUpdate restarts calls ∧
      Performed (fun _ _ => False) pool.world.crew.backend calls crew.backend ∧
      crew.roster = pool.world.crew.roster ∧ Clear { pool.world with crew } ∧
      ∀ fuel, pool.settle (World.host ρ settings) (fuel + 2) =
        Pool.settle (World.host ρ settings) fuel { pool with
          world := { pool.world with crew }
          ready
          waiting := pool.waiting ++
            [(Activity.keepAliveFrom (next + interval settings) seen).task settings number] } := by
  obtain ⟨restarts, calls, crew, hpass, hperformed, hroster, hclear', hround⟩ :=
    completes_keepAliveRound settings number seen hclear hdue
  have hfirst := turn_of_round hready (hround.map Ending.round) hclear'.spawned (hidle crew)
  -- The pass is one turn, and to wait for the next tick is another one.
  let later := (Activity.keepAliveFrom (next + interval settings) seen).task settings number
  let passed : Pool signature (World ρ) Ending := { pool with
    world := { pool.world with crew }
    ready := later :: ready }
  have hpassed : passed.ready = later :: ready := rfl
  have hsecond :=
    turn_of_activity hpassed rfl (attempt_tick hnews hlater) hclear'.spawned (hidle crew)
  refine ⟨restarts, calls, crew, hpass, hperformed, hroster, hclear', fun fuel => ?_⟩
  rw [Pool.settle_of_ready_cons hready, hfirst]
  show passed.settle (World.host ρ settings) (fuel + 1) = _
  rw [Pool.settle_of_ready_cons hpassed, hsecond]

namespace Simulation

variable {sim : Simulation ρ} {others : List (Task signature Ending)}

/-- At a tick the keep-alive loop makes one pass and waits for the next tick, beside tasks that make
no difference. -/
theorem change_tick (hready : sim.pool.ready = [])
    (hwaiting : sim.pool.waiting.Perm
      ((Activity.keepAliveFrom next seen).task sim.settings number :: others))
    (hothers : ∀ other ∈ others, ∀ crew, Pool.canGoOn (World.host ρ sim.settings)
      { sim.world with clock := next, crew } other = false)
    (hclear : Clear sim.world) (hnews : sim.world.shutdown.news? seen = none)
    (hinterval : 0 < sim.settings.keepAliveSeconds) :
    ∃ restarts calls crew waiting,
      Crew.Pass sim.world.crew.roster sim.settings.autoUpdate restarts calls ∧
      Performed (fun _ _ => False) sim.world.crew.backend calls crew.backend ∧
      crew.roster = sim.world.crew.roster ∧ Clear { sim.world with clock := next, crew } ∧
      waiting.Perm
        ((Activity.keepAliveFrom (next + interval sim.settings) seen).task sim.settings number ::
          others) ∧
      (sim.change fun w => { w with clock := next }).pool =
        { sim.pool with world := { sim.world with clock := next, crew }, waiting } := by
  let host := World.host ρ sim.settings
  let task := (Activity.keepAliveFrom next seen).task sim.settings number
  let due : Pool signature (World ρ) Ending := { sim.pool with
    world := { sim.world with clock := next } }
  have hqueue : due.waiting.Perm (task :: others) := hwaiting
  have hcanGoOn : Pool.canGoOn host due.world task = true := by
    show (due.world.attempt number (.tickOrShutdown next seen)).1.isSome = true
    simp [World.attempt, due]
  obtain ⟨waiting, hperm, hwake⟩ := wake_of_one hqueue hcanGoOn
    fun other hmem => hothers other hmem sim.world.crew
  let woken : Pool signature (World ρ) Ending := { due with
    ready := due.ready ++ [task]
    waiting }
  have hwoken : woken.ready = task :: [] := by
    show sim.pool.ready ++ _ = _
    rw [hready]
    rfl
  obtain ⟨restarts, calls, crew, hpass, hperformed, hroster, hclear', hsettle⟩ :=
    settle_pass hwoken (fun crew other hmem => hothers other (hperm.subset hmem) crew)
      ⟨hclear.lock, hclear.gated, hclear.spawned⟩ hnews (Nat.le_refl next)
      (lt_add_interval hinterval next)
  obtain ⟨fuel, hfuel⟩ : ∃ fuel, turns woken = fuel + 2 := by
    have hturns := length_lt_turns woken
    exact ⟨turns woken - 2, by omega⟩
  let later := (Activity.keepAliveFrom (next + interval sim.settings) seen).task sim.settings number
  refine ⟨restarts, calls, crew, waiting ++ [later], hpass, hperformed, hroster, hclear',
    (List.perm_append_singleton later waiting).trans (hperm.cons later), ?_⟩
  show (due.wake host).settle host (turns (due.wake host)) = _
  rw [hwake]
  show woken.settle host (turns woken) = _
  rw [hfuel, hsettle, Pool.settle_of_ready_nil rfl, ← hready]

/-! ## Requests from outside -/

/-- Something that need not wait comes to its end at once, beside tasks that make no difference. -/
theorem submit_of_completes {action : Action Result} {result : Result} {w' : World ρ}
    (hready : sim.pool.ready = [])
    (hidle : ∀ task ∈ sim.pool.waiting,
      Pool.canGoOn (World.host ρ sim.settings) sim.world task = false)
    (haction : action.Completes (World.attempt sim.pool.nextNumber) sim.world result w')
    (hspawned : w'.spawned = [])
    (hidle' : ∀ task ∈ sim.pool.waiting,
      Pool.canGoOn (World.host ρ sim.settings) w' task = false) :
    (sim.submit action).2.pool = { sim.pool with
      world := w'
      nextNumber := sim.pool.nextNumber + 1
      finished := (sim.pool.nextNumber, .result result) :: sim.pool.finished } := by
  let host := World.host ρ sim.settings
  let pool := sim.pool.spawn (.result <$> action)
  have hspawn : pool.ready = [⟨sim.pool.nextNumber, .result <$> action⟩] := by
    show sim.pool.ready ++ [_] = [_]
    rw [hready]
    rfl
  have hwake : pool.wake host = pool := wake_of_none hidle
  obtain ⟨fuel, hfuel⟩ : ∃ fuel, turns pool = fuel + 1 := by
    have hturns := length_lt_turns pool
    exact ⟨turns pool - 1, by omega⟩
  show (pool.wake host).settle host (turns (pool.wake host)) = _
  rw [hwake, hfuel, Pool.settle_of_ready_cons hspawn,
    turn_of_end hspawn (haction.map Ending.result) rfl hspawned hidle',
    Pool.settle_of_ready_nil rfl, ← hready]
  rfl

end Simulation

end Caretaker.Service
