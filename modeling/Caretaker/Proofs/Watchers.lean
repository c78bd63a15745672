import Caretaker.Proofs.Converge

/-!
# Watchers of the shutdown signal

Two activities of a service watch the shutdown signal, and each is written in its own way: who
serves health waits for nothing else, while the keep-alive passes wait for their next tick as well.
Both do the same with news, though.  They go on after a value that is no shutdown, whatever the
value was at the start, and leave at a shutdown or when the sender is gone.

Main definitions:

- `ShutdownSignal.ends`: whether a signal ends who has seen a part of it.
- `Watches`: what an activity does that watches the signal.

Main statements:

- `watches_health`, `watches_keepAlive`: both activities are watchers.
- `Watches.settle`: a watcher that can go on ends, or waits having seen everything.
- `Simulation.begin_watcher`: so does a watcher that begins.
-/

namespace Caretaker

/-! ## What a signal tells -/

namespace ShutdownSignal

variable {signal : ShutdownSignal} {seen : Nat}

/-- Whether a watcher ends that has seen `seen` sends: by news of a shutdown, or because the sender
is gone. -/
def ends (seen : Nat) (signal : ShutdownSignal) : Bool :=
  (seen != signal.sent && signal.value) || !signal.isOpen

/-- Who has seen everything has no news while there is a sender. -/
theorem news?_sent (h : signal.isOpen = true) : signal.news? signal.sent = none := by
  simp [news?, h]

/-- News end a watch, or tell of a value that is no shutdown. -/
theorem endsWatch_or_changed (news : ShutdownNews) :
    news.endsWatch = true ∨ ∃ sent, news = .changed sent false := by
  cases news with
  | closed => exact .inl rfl
  | changed sent value =>
    cases value with
    | true => exact .inl rfl
    | false => exact .inr ⟨sent, rfl⟩

/-- Who has no news has seen everything, and does not end. -/
theorem ends_of_none (h : signal.news? seen = none) :
    signal.ends seen = false ∧ seen = signal.sent := by
  unfold news? at h
  split at h
  · cases h
  · next hseen =>
    split at h
    · next hopen =>
      have hsame : seen = signal.sent := Decidable.not_not.1 hseen
      simp [ends, hsame, hopen]
    · cases h

theorem ends_of_endsWatch {news : ShutdownNews} (h : signal.news? seen = some news)
    (hends : news.endsWatch = true) : signal.ends seen = true := by
  unfold news? at h
  split at h
  · next hseen =>
    cases h
    have hvalue : signal.value = true := hends
    simp [ends, hseen, hvalue]
  · split at h
    · cases h
    · next hclosed => simp [ends, hclosed]

/-- After a value that is no shutdown a watcher ends only if the sender is gone. -/
theorem ends_of_changed {sent : Nat} (h : signal.news? seen = some (.changed sent false)) :
    sent = signal.sent ∧ signal.ends seen = !signal.isOpen := by
  unfold news? at h
  split at h
  · injection h with hnews
    injection hnews with hsent hvalue
    exact ⟨hsent.symm, by simp [ends, hvalue]⟩
  · split at h <;> cases h

theorem isOpen_of_not_ends (h : ¬ signal.ends seen = true) : signal.isOpen = true := by
  cases hopen : signal.isOpen with
  | true => rfl
  | false => simp [ends, hopen] at h

end ShutdownSignal

namespace Service

open Container (Backend)
open Script

variable {ρ : Type} [Backend ρ] {settings : Settings} {w left : World ρ}
  {activity : Nat → Activity} {seen next number : Nat}

/-! ## Watchers -/

/-- What an activity does in a world that watches the shutdown signal, having seen a part of it.  It
waits while there are no news, goes on to watch after a value that is no shutdown, and leaves the
world as `left` after other news. -/
structure Watches (settings : Settings) (activity : Nat → Activity) (w left : World ρ) : Prop where
  waits : ∀ seen who, w.shutdown.news? seen = none → ∃ r next,
    Ending.round <$> (activity seen).round settings = Script.ask (S := signature) r next ∧
      w.attempt who r = (none, w)
  stays : ∀ seen who sent, w.shutdown.news? seen = some (.changed sent false) →
    ((activity seen).round settings).Completes (World.attempt who) w (some (activity sent)) w
  leaves : ∀ seen who news, w.shutdown.news? seen = some news → news.endsWatch = true →
    ((activity seen).round settings).Completes (World.attempt who) w none left
  frame : left.clock = w.clock ∧ left.shutdown = w.shutdown ∧ left.spawned = w.spawned

/-- Who serves health watches, and leaves its address. -/
theorem watches_health (settings : Settings) (w : World ρ) :
    Watches settings Activity.healthFrom w
      { w with served := w.served.erase settings.healthAddress } := by
  have hask : ∀ seen who, w.attempt who (.shutdown seen) = (w.shutdown.news? seen, w) :=
    fun _ _ => rfl
  refine ⟨fun seen who hnews => ⟨.shutdown seen, _, rfl, ?_⟩, fun seen who sent hnews => ?_,
    fun seen who news hnews hends => ?_, rfl, rfl, rfl⟩
  · rw [hask, hnews]
  · have hanswer : w.attempt who (.shutdown seen) = (some (.changed sent false), w) := by
      rw [hask, hnews]
    exact (completes_ask hanswer).2 (completes_done _ _)
  · have hanswer : w.attempt who (.shutdown seen) = (some news, w) := by
      rw [hask, hnews]
    refine (completes_ask hanswer).2 ?_
    -- The address is left for either kind of news that end the watch.
    cases news with
    | changed sent value =>
      obtain rfl : value = true := hends
      exact (completes_request rfl).bind (completes_done _ _)
    | closed => exact (completes_request rfl).bind (completes_done _ _)

/-- What the keep-alive passes tell when they end. -/
def passesEnded : Event where
  level := .info
  component := .service
  message := "Keep-alive loop shutting down"
  fields := []

/-- The keep-alive passes watch before their next tick, and only tell that they end. -/
theorem watches_keepAlive (settings : Settings) (hdue : w.clock < next) :
    Watches settings (Activity.keepAliveFrom next) w
      { w with crew := w.crew.tell passesEnded } := by
  -- Before the tick only news can end the wait.
  have hask : ∀ seen who, w.attempt who (.tickOrShutdown next seen) =
      ((w.shutdown.news? seen).map .shutdown, w) := by
    intro seen who
    simp [World.attempt, Nat.not_le_of_lt hdue]
  refine ⟨fun seen who hnews => ⟨.tickOrShutdown next seen, _, rfl, ?_⟩,
    fun seen who sent hnews => ?_, fun seen who news hnews hends => ?_, rfl, rfl, rfl⟩
  · rw [hask, hnews]
    rfl
  · have hanswer : w.attempt who (.tickOrShutdown next seen) =
        (some (.shutdown (.changed sent false)), w) := by
      rw [hask, hnews]
      rfl
    exact (completes_ask hanswer).2 (completes_done _ _)
  · have hanswer : w.attempt who (.tickOrShutdown next seen) = (some (.shutdown news), w) := by
      rw [hask, hnews]
      rfl
    refine (completes_ask hanswer).2 ?_
    show (if news.endsWatch = true then _ else _ : Action Next).Completes _ _ _ _
    rw [if_pos hends]
    exact (completes_log _ _ _ _).bind (completes_done _ _)

section Settle

variable {pool : Pool signature (World ρ) Ending} {ready : List (Task signature Ending)}

/-- A watcher without news waits. -/
theorem Watches.settle_waits (h : Watches settings activity pool.world left)
    (hready : pool.ready = (activity seen).task settings number :: ready)
    (hspawned : pool.world.spawned = [])
    (hidle : ∀ task ∈ pool.waiting, Patient settings pool.world task)
    (hnews : pool.world.shutdown.news? seen = none) (fuel : Nat) :
    pool.settle (World.host ρ settings) (1 + fuel) =
      Pool.settle (World.host ρ settings) fuel { pool with
        ready
        waiting := pool.waiting ++ [(activity seen).task settings number] } := by
  obtain ⟨r, next, hround, hattempt⟩ := h.waits seen number hnews
  have hturn := turn_of_activity hready hround hattempt hspawned
    fun task hmem => hidle task hmem _ rfl rfl
  rw [Nat.add_comm, Pool.settle_of_ready_cons hready, hturn]

/-- A watcher whose watch ends leaves. -/
theorem Watches.settle_leaves (h : Watches settings activity pool.world left)
    (hready : pool.ready = (activity seen).task settings number :: ready)
    (hspawned : pool.world.spawned = [])
    (hidle : ∀ task ∈ pool.waiting, Patient settings pool.world task) {news : ShutdownNews}
    (hnews : pool.world.shutdown.news? seen = some news) (hends : news.endsWatch = true)
    (fuel : Nat) :
    pool.settle (World.host ρ settings) (1 + fuel) =
      Pool.settle (World.host ρ settings) fuel { pool with
        world := left
        ready
        finished := (number, .round none) :: pool.finished } := by
  obtain ⟨hclock, hshutdown, hspawned'⟩ := h.frame
  have hround := (h.leaves seen number news hnews hends).map Ending.round
  have hturn := turn_of_end hready hround rfl (hspawned'.trans hspawned)
    fun task hmem => hidle task hmem _ hclock hshutdown
  rw [Nat.add_comm, Pool.settle_of_ready_cons hready, hturn]
  rfl

/-- A watcher that can go on ends, or waits having seen everything. -/
theorem Watches.settle (h : Watches settings activity pool.world left)
    (hready : pool.ready = (activity seen).task settings number :: ready)
    (hspawned : pool.world.spawned = [])
    (hidle : ∀ task ∈ pool.waiting, Patient settings pool.world task) :
    ∃ needed ≤ 2, ∀ fuel, pool.settle (World.host ρ settings) (needed + fuel) =
      Pool.settle (World.host ρ settings) fuel
        (if pool.world.shutdown.ends seen then
          { pool with
            world := left
            ready
            finished := (number, .round none) :: pool.finished }
        else
          { pool with
            ready
            waiting := pool.waiting ++
              [(activity pool.world.shutdown.sent).task settings number] }) := by
  cases hnews : pool.world.shutdown.news? seen with
  | none =>
    obtain ⟨hends, hseen⟩ := ShutdownSignal.ends_of_none hnews
    refine ⟨1, by decide, fun fuel => ?_⟩
    rw [hends, ← hseen]
    exact h.settle_waits hready hspawned hidle hnews fuel
  | some news =>
    rcases ShutdownSignal.endsWatch_or_changed news with hends | ⟨sent, rfl⟩
    · refine ⟨1, by decide, fun fuel => ?_⟩
      rw [ShutdownSignal.ends_of_endsWatch hnews hends]
      exact h.settle_leaves hready hspawned hidle hnews hends fuel
    · -- After a value that is no shutdown the watcher looks once more.
      obtain ⟨rfl, hends⟩ := ShutdownSignal.ends_of_changed hnews
      have hround := (h.stays seen number _ hnews).map Ending.round
      have hturn := turn_of_round hready hround hspawned
        fun task hmem => hidle task hmem _ rfl rfl
      refine ⟨2, Nat.le_refl 2, fun fuel => ?_⟩
      rw [show 2 + fuel = 1 + fuel + 1 by omega, Pool.settle_of_ready_cons hready, hturn, hends]
      let again : Pool signature (World ρ) Ending := { pool with
        ready := (activity pool.world.shutdown.sent).task settings number :: ready }
      have hagain : again.ready =
          (activity pool.world.shutdown.sent).task settings number :: ready := rfl
      have h' : Watches settings activity again.world left := h
      cases hopen : pool.world.shutdown.isOpen with
      | true =>
        exact h'.settle_waits hagain hspawned hidle (ShutdownSignal.news?_sent hopen) fuel
      | false =>
        have hclosed : pool.world.shutdown.news? pool.world.shutdown.sent = some .closed := by
          simp [ShutdownSignal.news?, hopen]
        exact h'.settle_leaves hagain hspawned hidle hclosed rfl fuel

/-- Both watchers that can go on end, or wait having seen everything. -/
theorem settle_watchers {number' : Nat}
    (hready : pool.ready = [(Activity.healthFrom seen).task settings number,
      (Activity.keepAliveFrom next seen).task settings number'])
    (hwaiting : pool.waiting = []) (hspawned : pool.world.spawned = [])
    (hlater : pool.world.clock < next) :
    ∃ needed ≤ 4, ∀ fuel, pool.settle (World.host ρ settings) (needed + fuel) =
      if pool.world.shutdown.ends seen then
        { pool with
          world := { pool.world with
            crew := pool.world.crew.tell passesEnded
            served := pool.world.served.erase settings.healthAddress }
          ready := []
          finished := (number', .round none) :: (number, .round none) :: pool.finished }
      else
        { pool with
          ready := []
          waiting := [(Activity.healthFrom pool.world.shutdown.sent).task settings number,
            (Activity.keepAliveFrom next pool.world.shutdown.sent).task settings number'] } := by
  let host := World.host ρ settings
  have hnobody : ∀ task ∈ pool.waiting, Patient settings pool.world task := by simp [hwaiting]
  obtain ⟨needed, hneeded, hfirst⟩ :=
    (watches_health settings pool.world).settle hready hspawned hnobody
  -- The second watcher finds the signal as the first one did.
  split
  · next hends =>
    let left : Pool signature (World ρ) Ending := { pool with
      world := { pool.world with served := pool.world.served.erase settings.healthAddress }
      ready := [(Activity.keepAliveFrom next seen).task settings number']
      finished := (number, .round none) :: pool.finished }
    have hleft : left.ready = [(Activity.keepAliveFrom next seen).task settings number'] := rfl
    have hwatches := watches_keepAlive (w := left.world) settings hlater
    obtain ⟨needed', hneeded', hsecond⟩ := hwatches.settle hleft hspawned hnobody
    refine ⟨needed + needed', by omega, fun fuel => ?_⟩
    rw [if_pos hends] at hfirst
    rw [if_pos (by exact hends)] at hsecond
    rw [Nat.add_assoc, hfirst]
    show left.settle host (needed' + fuel) = _
    rw [hsecond, Pool.settle_of_ready_nil rfl]
  · next hstays =>
    have hopen : pool.world.shutdown.isOpen = true := ShutdownSignal.isOpen_of_not_ends hstays
    let watched : Pool signature (World ρ) Ending := { pool with
      ready := [(Activity.keepAliveFrom next seen).task settings number']
      waiting := [(Activity.healthFrom pool.world.shutdown.sent).task settings number] }
    have hwatched : watched.ready = [(Activity.keepAliveFrom next seen).task settings number'] :=
      rfl
    have hwatches := watches_keepAlive (w := watched.world) settings hlater
    obtain ⟨needed', hneeded', hsecond⟩ := hwatches.settle hwatched hspawned
      (List.forall_mem_singleton.2 (patient_health (ShutdownSignal.news?_sent hopen)))
    refine ⟨needed + needed', by omega, fun fuel => ?_⟩
    rw [if_neg hstays, hwaiting] at hfirst
    rw [if_neg (by exact hstays)] at hsecond
    rw [Nat.add_assoc, hfirst]
    show watched.settle host (needed' + fuel) = _
    rw [hsecond, Pool.settle_of_ready_nil rfl]
    rfl

end Settle

namespace Simulation

/-! ## How watchers begin -/

/-- A watcher that begins ends at once, or waits having seen everything. -/
theorem begin_watcher {sim : Simulation ρ} {first : Activity} (hready : sim.pool.ready = [])
    (hidle : ∀ task ∈ sim.pool.waiting, Patient sim.settings sim.world task)
    (hround : (first.round sim.settings).Completes (World.attempt sim.pool.nextNumber) sim.world
      (some (activity 0)) w)
    (hframe : w.clock = sim.world.clock ∧ w.shutdown = sim.world.shutdown ∧ w.spawned = [])
    (hwatches : Watches sim.settings activity w left) :
    (sim.begin first).pool =
      if sim.world.shutdown.ends 0 then
        { sim.pool with
          world := left
          nextNumber := sim.pool.nextNumber + 1
          finished := (sim.pool.nextNumber, .round none) :: sim.pool.finished }
      else
        { sim.pool with
          world := w
          nextNumber := sim.pool.nextNumber + 1
          waiting := sim.pool.waiting ++
            [(activity sim.world.shutdown.sent).task sim.settings sim.pool.nextNumber] } := by
  let host := World.host ρ sim.settings
  let pool := sim.pool.spawn (.round <$> first.round sim.settings)
  obtain ⟨hclock, hshutdown, hspawned⟩ := hframe
  have hspawn : pool.ready = [first.task sim.settings sim.pool.nextNumber] := by
    show sim.pool.ready ++ [_] = [_]
    rw [hready]
    rfl
  have hwake : pool.wake host = pool := wake_of_none fun task hmem => hidle task hmem _ rfl rfl
  have hturn := turn_of_round hspawn (hround.map Ending.round) hspawned
    fun task hmem => hidle task hmem w hclock hshutdown
  -- After the first turn it is a watcher that has seen nothing.
  let begun : Pool signature (World ρ) Ending := { pool with
    world := w
    ready := [(activity 0).task sim.settings sim.pool.nextNumber] }
  have hbegun : begun.ready = [(activity 0).task sim.settings sim.pool.nextNumber] := rfl
  have hwatches' : Watches sim.settings activity begun.world left := hwatches
  have hidle' : ∀ task ∈ begun.waiting, Patient sim.settings begun.world task :=
    fun task hmem w' hclock' hshutdown' =>
      hidle task hmem w' (hclock'.trans hclock) (hshutdown'.trans hshutdown)
  obtain ⟨needed, hneeded, hsettle⟩ := hwatches'.settle hbegun hspawned hidle'
  obtain ⟨fuel, hfuel⟩ : ∃ fuel, turns pool = needed + fuel + 1 := by
    have hturns := le_turns pool
    exact ⟨turns pool - needed - 1, by omega⟩
  show (pool.wake host).settle host (turns (pool.wake host)) = _
  rw [hwake, hfuel, Pool.settle_of_ready_cons hspawn, hturn]
  show begun.settle host (needed + fuel) = _
  rw [hsettle]
  show Pool.settle host fuel (if w.shutdown.ends 0 then _ else _) = _
  rw [hshutdown]
  split
  · rw [Pool.settle_of_ready_nil rfl, ← hready]
    rfl
  · rw [Pool.settle_of_ready_nil rfl, ← hready]
    rfl

end Simulation

end Service
end Caretaker
