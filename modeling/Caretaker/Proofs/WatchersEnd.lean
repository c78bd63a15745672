import Caretaker.Proofs.Incidents

/-!
# How the watchers end

Who serves health and the keep-alive passes see the same news of the shutdown signal, so they always
end together.  As long as they have not ended every request is answered and every tick lets a pass
be made, and from then on neither.

Main statements:

- `Simulation.Attends.signal`: what news lead to.
- `Simulation.Attends.tick`, `Simulation.Attends.knock`: what a tick leads to, and a request.
- `Simulation.Attends.incur`: what one incident leads to, and `Simulation.Watched.undergo`: what all
  of them do.
- `Simulation.watchers_end_together`: when the two have ended, whatever happened.
-/

namespace Caretaker.Service

open Container (Backend Memory)
open Crew (Performed)
open Script

variable {ρ : Type} [Backend ρ] {w : World ρ} {next : Nat}

namespace Simulation

/-! ## With watchers -/

/-- A service whose two watchers wait, having seen everything, and whose next pass is due at
`next`. -/
structure Attends (next : Nat) (sim : Simulation ρ) : Prop where
  spaced : 0 < sim.settings.keepAliveSeconds
  ready : sim.pool.ready = []
  clear : Clear sim.world
  isOpen : sim.world.shutdown.isOpen = true
  served : ∃ others, sim.settings.healthAddress ∉ others ∧
    sim.world.served = sim.settings.healthAddress :: others
  later : sim.world.clock < next
  soon : next ≤ sim.world.clock + interval sim.settings
  waiting : ∃ number number', sim.pool.waiting =
    [(Activity.healthFrom sim.world.shutdown.sent).task sim.settings number,
      (Activity.keepAliveFrom next sim.world.shutdown.sent).task sim.settings number']

section Attends

variable {sim : Simulation ρ}

omit [Backend ρ] in
theorem Attends.news (h : sim.Attends next) :
    sim.world.shutdown.news? sim.world.shutdown.sent = none := ShutdownSignal.news?_sent h.isOpen

/-- Before the next tick the watchers wait until there are news. -/
theorem Attends.isPatient (h : sim.Attends next) (hlater : w.clock < next)
    (hshutdown : w.shutdown = sim.world.shutdown) :
    ∀ task ∈ sim.pool.waiting, Patient sim.settings w task := by
  have hnews : w.shutdown.news? sim.world.shutdown.sent = none := by
    rw [hshutdown]
    exact h.news
  obtain ⟨number, number', hwaiting⟩ := h.waiting
  rw [hwaiting]
  simp only [List.forall_mem_cons]
  exact ⟨patient_health hnews, patient_keepAlive hnews hlater, List.forall_mem_nil _⟩

omit [Backend ρ] in
/-- The watchers wait on in a world with the same signal that serves on the same addresses. -/
theorem Attends.of_world (h : sim.Attends next) (hclear : Clear w) (hlater : w.clock < next)
    (hsoon : next ≤ w.clock + interval sim.settings) (hshutdown : w.shutdown = sim.world.shutdown)
    (hserved : w.served = sim.world.served) (nextNumber : Nat) (finished : List (Nat × Ending)) :
    Attends next { sim with pool := { sim.pool with world := w, nextNumber, finished } } where
  spaced := h.spaced
  ready := h.ready
  clear := hclear
  isOpen := (congrArg ShutdownSignal.isOpen hshutdown).trans h.isOpen
  served := by
    obtain ⟨others, hothers, hsame⟩ := h.served
    exact ⟨others, hothers, hserved.trans hsame⟩
  later := hlater
  soon := hsoon
  waiting := by
    obtain ⟨number, number', hwaiting⟩ := h.waiting
    refine ⟨number, number', ?_⟩
    show sim.pool.waiting = [(Activity.healthFrom w.shutdown.sent).task sim.settings number,
      (Activity.keepAliveFrom next w.shutdown.sent).task sim.settings number']
    rw [hshutdown]
    exact hwaiting

/-- Nothing goes on where neither a tick nor news come. -/
theorem Attends.change_of_same (h : sim.Attends next) {f : World ρ → World ρ}
    (hlater : (f sim.world).clock < next)
    (hshutdown : (f sim.world).shutdown = sim.world.shutdown) :
    sim.change f = { sim with pool := { sim.pool with world := f sim.world } } :=
  change_of_none h.ready fun task hmem => h.isPatient hlater hshutdown task hmem _ rfl rfl

/-! ### Requests -/

/-- A request is answered at once, by what is asked of the crew. -/
theorem completes_serve (settings : Settings) (who : Nat) (hclear : Clear w)
    (timestamp method target : String) :
    ∃ crew, Clear { w with crew } ∧
      (serve settings timestamp method target).Completes (World.attempt who) w
        (Health.respond timestamp
          { roles := (Crew.statusesLocked.run w.crew).1.map (roleHealth settings) }
          (Health.route method target)) { w with crew } := by
  unfold serve
  cases Health.route method target with
  | report bodyless =>
    let asked := (Crew.statusesLocked.run w.crew).2
    have hlock : asked.lock = {} := (Crew.World.lock_run _ w.crew).trans hclear.lock
    have hgated : asked.gated = [] := (Crew.World.gated_run _ w.crew).trans hclear.gated
    exact ⟨asked, ⟨hlock, hgated, hclear.spawned⟩,
      (completes_checkHealth settings who hclear).bind (completes_done _ _)⟩
  | alive => exact ⟨w.crew, hclear, completes_done _ _⟩
  | methodNotAllowed => exact ⟨w.crew, hclear, completes_done _ _⟩
  | notFound => exact ⟨w.crew, hclear, completes_done _ _⟩

theorem Attends.knock (h : sim.Attends next) (timestamp method target : String) :
    (sim.knock timestamp method target).1 = some sim.pool.nextNumber ∧
      (sim.knock timestamp method target).2.pool.finished =
        (sim.pool.nextNumber, .result (.response (sim.answer timestamp method target))) ::
          sim.pool.finished ∧
      Attends next (sim.knock timestamp method target).2 := by
  obtain ⟨others, -, hserved⟩ := h.served
  have hthere : sim.settings.healthAddress ∈ sim.world.served := by
    rw [hserved]
    exact List.mem_cons_self
  obtain ⟨crew, hclear, hserve⟩ :=
    completes_serve sim.settings sim.pool.nextNumber h.clear timestamp method target
  have hanswered := submit_of_completes h.ready
    (fun task hmem => h.isPatient h.later rfl task hmem _ rfl rfl)
    (hserve.map Result.response) hclear.spawned
    (fun task hmem => h.isPatient h.later rfl task hmem _ rfl rfl)
  have hknock : sim.knock timestamp method target =
      (some sim.pool.nextNumber,
        (sim.submit (.response <$> serve sim.settings timestamp method target)).2) := if_pos hthere
  have hafter : (sim.knock timestamp method target).2 = Simulation.mk sim.settings _ :=
    (congrArg Prod.snd hknock).trans (congrArg (Simulation.mk sim.settings) hanswered)
  rw [hafter, hknock]
  exact ⟨rfl, rfl, h.of_world hclear h.later h.soon rfl rfl _ _⟩

/-! ### Time -/

/-- A tick lets one pass be made. -/
theorem Attends.tick (h : sim.Attends next) :
    let ticked := sim.change fun w => { w with clock := next }
    ticked.world.clock = next ∧ ticked.Attends (next + interval sim.settings) ∧
      ∃ restarts calls, Crew.Pass sim.world.crew.roster sim.settings.autoUpdate restarts calls ∧
        Performed (fun _ _ => False) sim.world.crew.backend calls ticked.world.crew.backend := by
  intro ticked
  let host := World.host ρ sim.settings
  let due : World ρ := { sim.world with clock := next }
  obtain ⟨number, number', hwaiting⟩ := h.waiting
  let health := (Activity.healthFrom sim.world.shutdown.sent).task sim.settings number
  let keepAlive := (Activity.keepAliveFrom next sim.world.shutdown.sent).task sim.settings number'
  have hhealth : ∀ crew, Pool.canGoOn host { due with crew } health = false :=
    fun crew => patient_health (w := due) h.news _ rfl rfl
  have hkeepAlive : Pool.canGoOn host due keepAlive = true := by
    show (due.attempt number' (.tickOrShutdown next sim.world.shutdown.sent)).1.isSome = true
    simp [World.attempt, due]
  -- Only the pass wakes, since there are no news.
  let pool : Pool signature (World ρ) Ending := { sim.pool with world := due }
  let woken : Pool signature (World ρ) Ending := { pool with
    ready := [keepAlive]
    waiting := [health] }
  have hwake : pool.wake host = woken := by
    have hready : pool.ready = [] := h.ready
    have hqueue : pool.waiting = [health, keepAlive] := hwaiting
    have hwaits : Pool.canGoOn host pool.world health = false := hhealth sim.world.crew
    have hgoesOn : Pool.canGoOn host pool.world keepAlive = true := hkeepAlive
    simp only [Pool.wake, hready, hqueue, List.filter_cons, List.filter_nil, hwaits, hgoesOn]
    rfl
  have hwoken : woken.ready = keepAlive :: [] := rfl
  obtain ⟨restarts, calls, crew, hpass, hperformed, -, hclear, hsettle⟩ :=
    settle_pass hwoken (fun crew => List.forall_mem_singleton.2 (hhealth crew))
      ⟨h.clear.lock, h.clear.gated, h.clear.spawned⟩ h.news (Nat.le_refl next)
      (lt_add_interval h.spaced next)
  obtain ⟨fuel, hfuel⟩ : ∃ fuel, turns woken = fuel + 2 := by
    have hturns := le_turns woken
    exact ⟨turns woken - 2, by omega⟩
  have hpool : ticked.pool = { woken with
      world := { due with crew }
      ready := []
      waiting := [health,
        (Activity.keepAliveFrom (next + interval sim.settings) sim.world.shutdown.sent).task
          sim.settings number'] } := by
    show (pool.wake host).settle host (turns (pool.wake host)) = _
    rw [hwake, hfuel, hsettle, Pool.settle_of_ready_nil rfl]
    rfl
  rw [show ticked = _ from congrArg (Simulation.mk sim.settings) hpool]
  exact ⟨rfl, ⟨h.spaced, rfl, hclear, h.isOpen, h.served, lt_add_interval h.spaced next,
    Nat.le_refl _, number, number', rfl⟩, restarts, calls, hpass, hperformed⟩

omit [Backend ρ] in
theorem Attends.awaitedTicks (h : sim.Attends next) : sim.awaitedTicks = [next] := by
  obtain ⟨number, number', hwaiting⟩ := h.waiting
  unfold Simulation.awaitedTicks
  rw [hwaiting]
  rfl

/-- Nothing is done before the next tick. -/
theorem Attends.sleepUntil_of_lt (h : sim.Attends next) {deadline : Nat} (hdue : deadline < next)
    (stops : Nat) :
    sim.sleepUntil deadline stops =
      { sim with pool := { sim.pool with world := { sim.world with clock := deadline } } } := by
  have hchange := h.change_of_same (f := fun w => { w with clock := deadline }) hdue rfl
  cases stops with
  | zero => exact hchange
  | succ stops =>
    unfold Simulation.sleepUntil
    rw [h.awaitedTicks, List.filter_cons_of_neg (by simpa using hdue), List.filter_nil]
    exact hchange

/-- Time that reaches a tick stops there, and goes on after the pass. -/
theorem Attends.sleepUntil_of_le (h : sim.Attends next) {deadline : Nat} (hdue : next ≤ deadline)
    (stops : Nat) :
    sim.sleepUntil deadline (stops + 1) =
      Simulation.sleepUntil deadline stops (sim.change fun w => { w with clock := next }) := by
  rw [Simulation.sleepUntil, h.awaitedTicks, List.filter_cons_of_pos (by simpa using hdue),
    List.filter_nil]
  rfl

/-- Time passes with a pass at every tick. -/
theorem Attends.sleepUntil (h : sim.Attends next) {deadline stops : Nat}
    (hpast : sim.world.clock ≤ deadline) (hstops : deadline < sim.world.clock + stops) :
    ∃ next', (sim.sleepUntil deadline stops).Attends next' := by
  induction stops generalizing sim next with
  | zero => exact absurd hstops (Nat.not_lt_of_le hpast)
  | succ stops ih =>
    by_cases hdue : next ≤ deadline
    · -- The tick is a later time, so one stop less is enough for the rest.
      obtain ⟨hclock, htick, -⟩ := h.tick
      have hlater := h.later
      rw [h.sleepUntil_of_le hdue]
      refine ih htick ?_ ?_
      · rw [hclock]
        exact hdue
      · rw [hclock]
        omega
    · have hearly : deadline < next := Nat.lt_of_not_le hdue
      have hsoon : next ≤ deadline + interval sim.settings :=
        Nat.le_trans h.soon (Nat.add_le_add_right hpast _)
      rw [h.sleepUntil_of_lt hearly]
      exact ⟨next, h.of_world (w := { sim.world with clock := deadline })
        ⟨h.clear.lock, h.clear.gated, h.clear.spawned⟩ hearly hsoon rfl rfl _ _⟩

theorem Attends.attended (h : sim.Attends next) : sim.Attended where
  waiting := by
    obtain ⟨number, number', hwaiting⟩ := h.waiting
    exact ⟨_, _, number, number', hwaiting⟩
  answers timestamp method target := by
    obtain ⟨hnumber, hfinished, -⟩ := h.knock timestamp method target
    exact ⟨hnumber, hfinished⟩
  passes := by
    have hlater := h.later
    have hsoon := h.soon
    refine ⟨next - sim.world.clock, by omega, by omega, fun earlier hearlier => ?_, ?_⟩
    · have hearly : sim.world.clock + earlier < next := by omega
      rw [Simulation.sleep, h.sleepUntil_of_lt hearly]
      rfl
    · obtain ⟨-, htick, hpass⟩ := h.tick
      have hreached : sim.world.clock + (next - sim.world.clock) = next := by omega
      -- No time is left after the tick, so that its pass is the only one.
      have hagain : next < next + interval sim.settings := lt_add_interval h.spaced next
      rw [Simulation.sleep, hreached, h.sleepUntil_of_le (Nat.le_refl next),
        htick.sleepUntil_of_lt hagain]
      exact hpass

/-! ### News -/

/-- Both watchers take the news of the shutdown signal: they end, or wait having seen everything. -/
theorem Attends.signal (h : sim.Attends next) {shutdown : ShutdownSignal}
    (hnews : (shutdown.news? sim.world.shutdown.sent).isSome = true) :
    let told := sim.change fun w => { w with shutdown }
    if shutdown.ends sim.world.shutdown.sent then told.Quiet else told.Attends next := by
  intro told
  let host := World.host ρ sim.settings
  let w : World ρ := { sim.world with shutdown }
  obtain ⟨number, number', hwaiting⟩ := h.waiting
  let seen := sim.world.shutdown.sent
  let health := (Activity.healthFrom seen).task sim.settings number
  let keepAlive := (Activity.keepAliveFrom next seen).task sim.settings number'
  -- Both wake, in the order in which they wait.
  let pool : Pool signature (World ρ) Ending := { sim.pool with world := w }
  let woken : Pool signature (World ρ) Ending := { pool with
    ready := [health, keepAlive]
    waiting := [] }
  have hwake : pool.wake host = woken := by
    have hready : pool.ready = [] := h.ready
    have hqueue : pool.waiting = [health, keepAlive] := hwaiting
    have hhealth : Pool.canGoOn host pool.world health = true := hnews
    have hkeepAlive : Pool.canGoOn host pool.world keepAlive = true := by
      show (w.attempt number' (.tickOrShutdown next seen)).1.isSome = true
      have hlater : ¬ next ≤ w.clock := Nat.not_le_of_lt h.later
      simp only [World.attempt, if_neg hlater, Option.isSome_map]
      exact hnews
    simp only [Pool.wake, hready, hqueue, List.filter_cons, List.filter_nil, hhealth, hkeepAlive]
    rfl
  have hwoken : woken.ready = [health, keepAlive] := rfl
  obtain ⟨needed, hneeded, hsettle⟩ := settle_watchers hwoken rfl h.clear.spawned h.later
  obtain ⟨fuel, hfuel⟩ : ∃ fuel, turns woken = needed + fuel := by
    have hturns := le_turns woken
    exact ⟨turns woken - needed, by omega⟩
  have hpool : told.pool = woken.settle host (needed + fuel) := by
    show (pool.wake host).settle host (turns (pool.wake host)) = _
    rw [hwake, hfuel]
  rw [hsettle] at hpool
  obtain ⟨others, hothers, hserved⟩ := h.served
  split
  · next hstop =>
    rw [show told = _ from congrArg (Simulation.mk sim.settings) (hpool.trans (if_pos hstop))]
    refine ⟨rfl, rfl, ⟨h.clear.lock, h.clear.gated, h.clear.spawned⟩, ?_⟩
    show sim.settings.healthAddress ∉ sim.world.served.erase sim.settings.healthAddress
    rw [hserved, List.erase_cons_head]
    exact hothers
  · next hstays =>
    rw [show told = _ from congrArg (Simulation.mk sim.settings) (hpool.trans (if_neg hstays))]
    exact ⟨h.spaced, rfl, ⟨h.clear.lock, h.clear.gated, h.clear.spawned⟩,
      ShutdownSignal.isOpen_of_not_ends hstays, ⟨others, hothers, hserved⟩, h.later, h.soon,
      number, number', rfl⟩

/-- The watchers wait on after an incident, or both end if it is a stop. -/
theorem Attends.incur (h : sim.Attends next) (incident : Incident ρ) :
    if incident.isStop then (sim.incur incident).Quiet
    else ∃ next', (sim.incur incident).Attends next' := by
  cases incident with
  | sends value =>
    let shutdown := sim.world.shutdown.send value
    have hnews : (shutdown.news? sim.world.shutdown.sent).isSome = true := by
      simp [shutdown, ShutdownSignal.send, ShutdownSignal.news?]
    have hends : shutdown.ends sim.world.shutdown.sent = value := by
      simp [shutdown, ShutdownSignal.send, ShutdownSignal.ends, h.isOpen]
    have hsend : sim.incur (.sends value) = sim.change fun w => { w with shutdown } := by
      show (sim.sendShutdown value).2 = _
      rw [sendShutdown, if_pos h.isOpen]
      rfl
    have htold := h.signal hnews
    rw [hends] at htold
    rw [hsend]
    cases value with
    | true => exact htold
    | false => exact ⟨next, htold⟩
  | drops =>
    let shutdown := sim.world.shutdown.close
    have hnews : (shutdown.news? sim.world.shutdown.sent).isSome = true := by
      simp [shutdown, ShutdownSignal.close, ShutdownSignal.news?]
    have hends : shutdown.ends sim.world.shutdown.sent = true := by
      simp [shutdown, ShutdownSignal.close, ShutdownSignal.ends]
    have htold := h.signal hnews
    rw [hends] at htold
    exact htold
  | elapses milliseconds => exact h.sleepUntil (Nat.le_add_right _ _) (by omega)
  | asks timestamp method target => exact ⟨next, (h.knock timestamp method target).2.2⟩
  | works backend roster =>
    let w : World ρ := { sim.world with crew := { sim.world.crew with backend, roster } }
    have hworks : sim.incur (.works backend roster) =
        { sim with pool := { sim.pool with world := w } } :=
      h.change_of_same (f := fun w => { w with crew := { w.crew with backend, roster } })
        h.later rfl
    rw [hworks]
    exact ⟨next, h.of_world (w := w) ⟨h.clear.lock, h.clear.gated, h.clear.spawned⟩ h.later h.soon
      rfl rfl _ _⟩

end Attends

/-! ## Whatever happens -/

section Watched

variable {sim : Simulation ρ} {isOver : Bool}

/-- Whether the watchers go on, or have both ended if it is over. -/
def Watched (isOver : Bool) (sim : Simulation ρ) : Prop :=
  if isOver then sim.Quiet else ∃ next, sim.Attends next

theorem Watched.incur (h : sim.Watched isOver) (incident : Incident ρ) :
    (sim.incur incident).Watched (isOver || incident.isStop) := by
  cases isOver with
  | true => exact (Quiet.incur h incident).1
  | false =>
    obtain ⟨next, hattends⟩ := h
    exact hattends.incur incident

theorem Watched.undergo (h : sim.Watched isOver) (incidents : List (Incident ρ)) :
    (sim.undergo incidents).Watched (isOver || incidents.any Incident.isStop) := by
  induction incidents generalizing sim isOver with
  | nil =>
    rw [List.any_nil, Bool.or_false]
    exact h
  | cons incident incidents ih =>
    rw [List.any_cons, ← Bool.or_assoc]
    exact ih (h.incur incident)

/-! ### How the watchers begin -/

/-- What is told when health begins to be served. -/
def healthServed (settings : Settings) : Event where
  level := .info
  component := .health
  message := "Health server listening"
  fields := [("addr", settings.healthAddress.render)]

/-- What is told when the keep-alive passes begin. -/
def passesBegun (settings : Settings) : Event where
  level := .info
  component := .service
  message := "Starting keep-alive loop"
  fields := [("interval_secs", .number settings.keepAliveSeconds)]

/-- Health begins to be served, and the address is left at once if the watch ends. -/
theorem Quiet.begin_health (h : sim.Quiet) :
    (sim.begin .health).pool =
      if sim.world.shutdown.ends 0 then
        { sim.pool with
          world := { sim.world with crew := sim.world.crew.tell (healthServed sim.settings) }
          nextNumber := sim.pool.nextNumber + 1
          finished := (sim.pool.nextNumber, .round none) :: sim.pool.finished }
      else
        { sim.pool with
          world := { sim.world with
            crew := sim.world.crew.tell (healthServed sim.settings)
            served := sim.settings.healthAddress :: sim.world.served }
          nextNumber := sim.pool.nextNumber + 1
          waiting := [(Activity.healthFrom sim.world.shutdown.sent).task sim.settings
            sim.pool.nextNumber] } := by
  let address := sim.settings.healthAddress
  let serving : World ρ := { sim.world with
    served := address :: sim.world.served
    crew := sim.world.crew.tell (healthServed sim.settings) }
  have hlisten : World.attempt sim.pool.nextNumber (.listen address) sim.world =
      (some true, { sim.world with served := address :: sim.world.served }) := by
    have hfree : sim.world.isFree address = true := by
      simp [World.isFree, address, h.refused]
    simp [World.attempt, hfree]
  have hround : (Activity.health.round sim.settings).Completes
      (World.attempt sim.pool.nextNumber) sim.world (some (.healthFrom 0)) serving := by
    refine (completes_request hlisten).bind ?_
    rw [if_pos rfl]
    exact (completes_log _ _ _ _).bind (completes_done _ _)
  have hnobody : ∀ task ∈ sim.pool.waiting, Patient sim.settings sim.world task := by
    simp [h.waiting]
  have hbegan := begin_watcher h.ready hnobody hround ⟨rfl, rfl, h.clear.spawned⟩
    (watches_health sim.settings serving)
  have hleft : serving.served.erase sim.settings.healthAddress = sim.world.served :=
    List.erase_cons_head _ _
  rw [hleft, h.waiting] at hbegan
  exact hbegan

/-- The keep-alive passes begin, and end before the first one if the watch ends. -/
theorem begin_keepAlive (hready : sim.pool.ready = [])
    (hidle : ∀ task ∈ sim.pool.waiting, Patient sim.settings sim.world task)
    (hspawned : sim.world.spawned = []) (hspaced : 0 < sim.settings.keepAliveSeconds) :
    (sim.begin .keepAlive).pool =
      if sim.world.shutdown.ends 0 then
        { sim.pool with
          world := { sim.world with
            crew := (sim.world.crew.tell (passesBegun sim.settings)).tell passesEnded }
          nextNumber := sim.pool.nextNumber + 1
          finished := (sim.pool.nextNumber, .round none) :: sim.pool.finished }
      else
        { sim.pool with
          world := { sim.world with crew := sim.world.crew.tell (passesBegun sim.settings) }
          nextNumber := sim.pool.nextNumber + 1
          waiting := sim.pool.waiting ++
            [(Activity.keepAliveFrom (sim.world.clock + interval sim.settings)
              sim.world.shutdown.sent).task sim.settings sim.pool.nextNumber] } := by
  let begun : World ρ := { sim.world with
    crew := sim.world.crew.tell (passesBegun sim.settings) }
  have hround : (Activity.keepAlive.round sim.settings).Completes
      (World.attempt sim.pool.nextNumber) sim.world
      (some (.keepAliveFrom (sim.world.clock + interval sim.settings) 0)) begun :=
    (completes_request rfl).bind ((completes_log _ _ _ _).bind (completes_done _ _))
  have hlater : begun.clock < sim.world.clock + interval sim.settings :=
    lt_add_interval hspaced sim.world.clock
  exact begin_watcher hready hidle hround ⟨rfl, rfl, hspawned⟩
    (watches_keepAlive sim.settings hlater)

/-- The watchers begin without a call, and both end at once if the signal ends their watch. -/
theorem Quiet.begin_watchers (h : sim.Quiet) (hspaced : 0 < sim.settings.keepAliveSeconds) :
    let began := (sim.begin .health).begin .keepAlive
    began.Watched (sim.world.shutdown.ends 0) ∧
      began.world.crew.backend = sim.world.crew.backend := by
  intro began
  have hhealth := h.begin_health
  cases hends : sim.world.shutdown.ends 0 with
  | true =>
    rw [if_pos hends] at hhealth
    let left : Simulation ρ := { sim with pool := { sim.pool with
      world := { sim.world with crew := sim.world.crew.tell (healthServed sim.settings) }
      nextNumber := sim.pool.nextNumber + 1
      finished := (sim.pool.nextNumber, .round none) :: sim.pool.finished } }
    have hleft : sim.begin .health = left := congrArg (Simulation.mk sim.settings) hhealth
    have hnobody : ∀ task ∈ left.pool.waiting, Patient left.settings left.world task := by
      show ∀ task ∈ sim.pool.waiting, _
      simp [h.waiting]
    have hready : left.pool.ready = [] := h.ready
    have hkeepAlive := begin_keepAlive hready hnobody h.clear.spawned hspaced
    have hbegan : began = left.begin .keepAlive := congrArg (begin .keepAlive) hleft
    rw [hbegan, show left.begin .keepAlive = _ from
      congrArg (Simulation.mk sim.settings) (hkeepAlive.trans (if_pos hends))]
    exact ⟨⟨h.ready, h.waiting, ⟨h.clear.lock, h.clear.gated, h.clear.spawned⟩, h.refused⟩, rfl⟩
  | false =>
    have hstays : ¬ sim.world.shutdown.ends 0 = true := by simp [hends]
    rw [if_neg hstays] at hhealth
    have hopen : sim.world.shutdown.isOpen = true := ShutdownSignal.isOpen_of_not_ends hstays
    let serving : Simulation ρ := { sim with pool := { sim.pool with
      world := { sim.world with
        crew := sim.world.crew.tell (healthServed sim.settings)
        served := sim.settings.healthAddress :: sim.world.served }
      nextNumber := sim.pool.nextNumber + 1
      waiting := [(Activity.healthFrom sim.world.shutdown.sent).task sim.settings
        sim.pool.nextNumber] } }
    have hserving : sim.begin .health = serving := congrArg (Simulation.mk sim.settings) hhealth
    have hpatient : ∀ task ∈ serving.pool.waiting,
        Patient serving.settings serving.world task :=
      List.forall_mem_singleton.2 (patient_health (ShutdownSignal.news?_sent hopen))
    have hready : serving.pool.ready = [] := h.ready
    have hkeepAlive := begin_keepAlive hready hpatient h.clear.spawned hspaced
    have hbegan : began = serving.begin .keepAlive := congrArg (begin .keepAlive) hserving
    rw [hbegan, show serving.begin .keepAlive = _ from
      congrArg (Simulation.mk sim.settings) (hkeepAlive.trans (if_neg hstays))]
    refine ⟨⟨sim.world.clock + interval sim.settings, ?_⟩, rfl⟩
    exact ⟨hspaced, h.ready, ⟨h.clear.lock, h.clear.gated, h.clear.spawned⟩, hopen,
      ⟨sim.world.served, h.refused, rfl⟩, lt_add_interval hspaced _, Nat.le_refl _, _, _, rfl⟩

/-! ### Where the watchers stand -/

/-- A service whose watchers go on is not one whose watchers have ended. -/
theorem Attended.not_abandoned (h : sim.Attended) : ¬ sim.Abandoned := by
  intro habandoned
  obtain ⟨next, seen, number, number', hwaiting⟩ := h.waiting
  have hended := habandoned.ended
  rw [isIdle, hwaiting, Bool.and_eq_true] at hended
  cases hended.2

/-- What watchers do, and do no more when it is over. -/
theorem Watched.stands (h : sim.Watched isOver) :
    (sim.Attended ↔ isOver = false) ∧ (sim.Abandoned ↔ isOver = true) := by
  cases isOver with
  | true =>
    have habandoned : sim.Abandoned := Quiet.abandoned h
    exact ⟨⟨fun hattended => absurd habandoned hattended.not_abandoned, nofun⟩,
      fun _ => rfl, fun _ => habandoned⟩
  | false =>
    obtain ⟨next, hattends⟩ := h
    have hattended : sim.Attended := hattends.attended
    exact ⟨⟨fun _ => rfl, fun _ => hattended⟩,
      fun habandoned => absurd habandoned hattended.not_abandoned, nofun⟩

end Watched

/-- A service at whose start nothing happened yet, with a shutdown signal of some value. -/
def initWith (settings : Settings) (backend : ρ) (images : ImageStore) (probe : Probe)
    (initial : Bool) : Simulation ρ :=
  (init settings backend images probe).change fun w => { w with shutdown := { value := initial } }

theorem quiet_initWith (settings : Settings) (backend : ρ) (images : ImageStore) (probe : Probe)
    (initial : Bool) :
    (initWith settings backend images probe initial).Quiet ∧
      (initWith settings backend images probe initial).settings = settings ∧
      (initWith settings backend images probe initial).world.shutdown = { value := initial } := by
  unfold initWith
  rw [change_of_idle rfl rfl]
  exact ⟨⟨rfl, rfl, ⟨rfl, rfl, rfl⟩, List.not_mem_nil⟩, rfl, rfl⟩

/-- Who serves health and the keep-alive passes end together.  Whatever happened `before` they began
and whatever happens `after` that, and whatever the signal was at the start:

- they begin without a call;
- both go on as long as there was no stop: no shutdown was signalled before, and since then neither
  a shutdown was sent nor the sender dropped.  Meanwhile every request is answered and every tick
  lets a pass be made;
- both have ended from a stop on, and then every request is refused and no pass is made. -/
theorem watchers_end_together {settings : Settings} (hspaced : 0 < settings.keepAliveSeconds)
    (backend : ρ) (images : ImageStore) (probe : Probe) (initial : Bool)
    (before after : List (Incident ρ)) :
    let first := (initWith settings backend images probe initial).undergo before
    let began := (first.begin .health).begin .keepAlive
    let now := began.undergo after
    let isOver := signalled before || after.any Incident.isStop
    began.world.crew.backend = first.world.crew.backend ∧
      (now.Attended ↔ isOver = false) ∧ (now.Abandoned ↔ isOver = true) := by
  intro first began now isOver
  obtain ⟨hquiet, hsettings, hinitial⟩ := quiet_initWith settings backend images probe initial
  obtain ⟨hfirst, hshutdown⟩ := hquiet.undergo before
  rw [hinitial] at hshutdown
  have hsame : first.settings = settings := (settings_undergo before _).trans hsettings
  have hspaced' : 0 < first.settings.keepAliveSeconds := by rwa [hsame]
  obtain ⟨hbegan, hcalls⟩ := hfirst.begin_watchers hspaced'
  rw [hshutdown, ends_signal] at hbegan
  exact ⟨hcalls, (hbegan.undergo after).stands⟩

/-- A shutdown that was called off before the watchers began ends neither of them, nor does a value
that is none; the shutdown after that ends both. -/
theorem watchers_end_at_shutdown :
    let before : List (Incident Memory) := [.sends true, .sends false]
    let after : List (Incident Memory) :=
      [.asks "2024-01-01T00:00:00Z" "GET" "/livez", .elapses 25000, .sends false]
    let first := (initWith Crew.developmentSettings {} (.plain (Crew.Sample.refs "sup:v0"))
      (.failingAt [] none) true).undergo before
    let began := (first.begin .health).begin .keepAlive
    0 < Crew.developmentSettings.keepAliveSeconds ∧ (began.undergo after).Attended ∧
      (began.undergo (after ++ [.sends true])).Abandoned := by
  intro before after first began
  have hspaced : 0 < Crew.developmentSettings.keepAliveSeconds := by decide
  have hstays : (signalled before || after.any Incident.isStop) = false := by decide
  have hstops : (signalled before || (after ++ [Incident.sends true]).any Incident.isStop) =
      true := by
    decide
  obtain ⟨-, hattended, -⟩ := watchers_end_together hspaced {}
    (.plain (Crew.Sample.refs "sup:v0")) (.failingAt [] none) true before after
  obtain ⟨-, -, habandoned⟩ := watchers_end_together hspaced {}
    (.plain (Crew.Sample.refs "sup:v0")) (.failingAt [] none) true before
    (after ++ [.sends true])
  exact ⟨hspaced, hattended.2 hstays, habandoned.2 hstops⟩

end Simulation

end Caretaker.Service
