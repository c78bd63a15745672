import Caretaker.Proofs.Watchers

/-!
# Incidents

The shutdown signal is sent and its sender dropped, time passes, requests arrive where health is
served, and others work on the crew.  None of this lets a service do anything in which nothing goes
on.

Main definitions:

- `Incident`, `Simulation.undergo`: what happens around the watchers of the shutdown signal.
- `signalled`: whether a shutdown was signalled after all.
- `Simulation.Attended`, `Simulation.Abandoned`: a service whose watchers go on, and one whose
  watchers have ended.

Main statements:

- `ends_signal`: the signal ends who begins to watch it exactly if a shutdown was signalled.
- `Simulation.Quiet.undergo`: nothing begins by incidents alone.
-/

namespace Caretaker.Service

open Container (Backend)
open Crew (Performed)

variable {ρ : Type} [Backend ρ]

/-! ## What happens around the watchers -/

/-- Something that happens around the watchers. -/
inductive Incident (ρ : Type) where
  /-- A value of the shutdown signal is sent. -/
  | sends (value : Bool)
  /-- The sender of the shutdown signal is dropped. -/
  | drops
  /-- Time passes. -/
  | elapses (milliseconds : Nat)
  /-- A request arrives at the address where health is served. -/
  | asks (timestamp method target : String)
  /-- Others work on the crew. -/
  | works (backend : ρ) (roster : Crew.Roster)

namespace Incident

/-- Whether watchers that wait for it end at an incident. -/
def isStop : Incident ρ → Bool
  | sends value => value
  | drops => true
  | _ => false

/-- Whether an incident drops the sender. -/
def isDrop : Incident ρ → Bool
  | drops => true
  | _ => false

/-- The value that is sent at an incident, if there is somebody to send it. -/
def value? : Incident ρ → Option Bool
  | sends value => some value
  | _ => none

/-- What an incident makes of the shutdown signal. -/
def signal (signal : ShutdownSignal) : Incident ρ → ShutdownSignal
  | sends value => if signal.isOpen then signal.send value else signal
  | drops => signal.close
  | _ => signal

end Incident

/-- Whether a shutdown was signalled after all: the sender was dropped, or the last value that it
sent says so. -/
def signalled (incidents : List (Incident ρ)) : Bool :=
  incidents.any Incident.isDrop || (incidents.filterMap Incident.value?).getLast? == some true

section Signalled

omit [Backend ρ]

variable {incidents : List (Incident ρ)}

theorem isOpen_signal (incidents : List (Incident ρ)) (signal : ShutdownSignal) :
    (incidents.foldl Incident.signal signal).isOpen =
      (signal.isOpen && !incidents.any Incident.isDrop) := by
  induction incidents generalizing signal with
  | nil => simp
  | cons incident incidents ih =>
    rw [List.foldl_cons, ih, List.any_cons]
    cases incident with
    | sends value =>
      simp only [Incident.signal, Incident.isDrop]
      split <;> rfl
    | drops => simp [Incident.signal, Incident.isDrop, ShutdownSignal.close]
    | _ => rfl

/-- While there is a sender, everything is sent. -/
theorem sent_signal (hopen : incidents.any Incident.isDrop = false) {signal : ShutdownSignal}
    (hsignal : signal.isOpen = true) :
    (incidents.foldl Incident.signal signal).sent =
        signal.sent + (incidents.filterMap Incident.value?).length ∧
      (incidents.foldl Incident.signal signal).value =
        (incidents.filterMap Incident.value?).getLastD signal.value := by
  induction incidents generalizing signal with
  | nil => exact ⟨rfl, rfl⟩
  | cons incident incidents ih =>
    rw [List.any_cons, Bool.or_eq_false_iff] at hopen
    obtain ⟨hstays, hopen⟩ := hopen
    rw [List.foldl_cons]
    cases incident with
    | sends value =>
      have hsend : Incident.signal signal (.sends (ρ := ρ) value) = signal.send value :=
        if_pos hsignal
      have hstill : (signal.send value).isOpen = true := hsignal
      obtain ⟨hsent, hvalue⟩ := ih hopen hstill
      have hvalues : (Incident.sends value :: incidents).filterMap Incident.value? =
          value :: incidents.filterMap Incident.value? := rfl
      rw [hsend, hsent, hvalue, hvalues, List.length_cons, List.getLastD_cons]
      refine ⟨?_, rfl⟩
      show signal.sent + 1 + _ = _
      omega
    | drops => cases hstays
    | _ => exact ih hopen hsignal

/-- Who begins to watch ends at once if a shutdown was signalled before. -/
theorem ends_signal (incidents : List (Incident ρ)) (initial : Bool) :
    (incidents.foldl Incident.signal { value := initial }).ends 0 = signalled incidents := by
  unfold ShutdownSignal.ends signalled
  rw [isOpen_signal, Bool.true_and, Bool.not_not]
  cases hdrops : incidents.any Incident.isDrop with
  | true => simp
  | false =>
    have hinitial : ({ value := initial } : ShutdownSignal).isOpen = true := rfl
    obtain ⟨hsent, hvalue⟩ := sent_signal hdrops hinitial
    rw [hsent, hvalue, Bool.or_false, Bool.false_or]
    -- The last value that was sent is the one that counts, if there is one.
    cases hvalues : incidents.filterMap Incident.value? using List.reverseRecOn with
    | nil => rfl
    | append_singleton values value => simp

end Signalled

namespace Simulation

/-- What comes of a request that arrives at the address where health is served: the number by which
its answer is known, or nothing if it is refused. -/
def knock (timestamp method target : String) (sim : Simulation ρ) : Option Nat × Simulation ρ :=
  if sim.settings.healthAddress ∈ sim.world.served then
    let (number, sim) := sim.submit (.response <$> serve sim.settings timestamp method target)
    (some number, sim)
  else (none, sim)

/-- A simulation after one incident. -/
def incur (sim : Simulation ρ) : Incident ρ → Simulation ρ
  | .sends value => (sim.sendShutdown value).2
  | .drops => sim.closeShutdown
  | .elapses milliseconds => sim.sleep milliseconds
  | .asks timestamp method target => (sim.knock timestamp method target).2
  | .works backend roster =>
    sim.change fun w => { w with crew := { w.crew with backend, roster } }

/-- A simulation after incidents, the first one first. -/
def undergo (incidents : List (Incident ρ)) (sim : Simulation ρ) : Simulation ρ :=
  incidents.foldl incur sim

/-- The answer to a request, with a report on the roles as they are. -/
def answer (timestamp method target : String) (sim : Simulation ρ) : Health.Response :=
  let statuses := (Crew.statusesLocked.run sim.world.crew).1
  Health.respond timestamp { roles := statuses.map (roleHealth sim.settings) }
    (Health.route method target)

/-- A service whose two watchers go on. -/
structure Attended (sim : Simulation ρ) : Prop where
  /-- Both wait. -/
  waiting : ∃ next seen number number', sim.pool.waiting =
    [(Activity.healthFrom seen).task sim.settings number,
      (Activity.keepAliveFrom next seen).task sim.settings number']
  /-- Every request is answered at once. -/
  answers : ∀ timestamp method target,
    (sim.knock timestamp method target).1 = some sim.pool.nextNumber ∧
      (sim.knock timestamp method target).2.pool.finished =
        (sim.pool.nextNumber, .result (.response (sim.answer timestamp method target))) ::
          sim.pool.finished
  /-- At the next tick one pass is made, and no call before it. -/
  passes : ∃ milliseconds, 0 < milliseconds ∧ milliseconds ≤ interval sim.settings ∧
    (∀ earlier < milliseconds, (sim.sleep earlier).world.crew = sim.world.crew) ∧
    ∃ restarts calls, Crew.Pass sim.world.crew.roster sim.settings.autoUpdate restarts calls ∧
      Performed (fun _ _ => False) sim.world.crew.backend calls
        (sim.sleep milliseconds).world.crew.backend

/-- A service whose watchers have ended. -/
structure Abandoned (sim : Simulation ρ) : Prop where
  ended : sim.isIdle = true
  /-- Every request is refused. -/
  refuses : ∀ timestamp method target, sim.knock timestamp method target = (none, sim)
  /-- No pass is made, however much time passes. -/
  rests : ∀ milliseconds, (sim.sleep milliseconds).world.crew = sim.world.crew

/-- No incident changes the settings. -/
theorem settings_undergo (incidents : List (Incident ρ)) (sim : Simulation ρ) :
    (sim.undergo incidents).settings = sim.settings := by
  have hsleep : ∀ (deadline stops : Nat) (sim : Simulation ρ),
      (sim.sleepUntil deadline stops).settings = sim.settings := by
    intro deadline stops
    induction stops with
    | zero => exact fun _ => rfl
    | succ stops ih =>
      intro sim
      rw [sleepUntil]
      split
      · rfl
      · exact ih _
  induction incidents generalizing sim with
  | nil => rfl
  | cons incident incidents ih =>
    refine (ih (sim.incur incident)).trans ?_
    cases incident with
    | sends value =>
      simp only [incur, sendShutdown]
      split <;> rfl
    | drops => rfl
    | elapses milliseconds => exact hsleep _ _ sim
    | asks timestamp method target =>
      simp only [incur, knock]
      split <;> rfl
    | works => rfl

/-! ## Without watchers -/

/-- A service in which nothing goes on, and that does not serve health. -/
structure Quiet (sim : Simulation ρ) : Prop where
  ready : sim.pool.ready = []
  waiting : sim.pool.waiting = []
  clear : Clear sim.world
  refused : sim.settings.healthAddress ∉ sim.world.served

section Quiet

variable {sim : Simulation ρ}

theorem Quiet.knock (h : sim.Quiet) (timestamp method target : String) :
    sim.knock timestamp method target = (none, sim) := if_neg h.refused

theorem Quiet.sleep (h : sim.Quiet) (milliseconds : Nat) :
    sim.sleep milliseconds = { sim with pool := { sim.pool with
      world := { sim.world with clock := sim.world.clock + milliseconds } } } := by
  have hticks : sim.awaitedTicks = [] := by
    unfold awaitedTicks
    rw [h.waiting]
    rfl
  rw [sleep_of_no_tick hticks, change_of_idle h.ready h.waiting]

theorem Quiet.abandoned (h : sim.Quiet) : sim.Abandoned where
  ended := by simp [isIdle, h.ready, h.waiting]
  refuses := h.knock
  rests milliseconds := by
    rw [h.sleep milliseconds]
    rfl

/-- Nothing that happens from outside lets anything begin; the signal changes as it is told. -/
theorem Quiet.incur (h : sim.Quiet) (incident : Incident ρ) :
    (sim.incur incident).Quiet ∧
      (sim.incur incident).world.shutdown = incident.signal sim.world.shutdown := by
  have hchange : ∀ f : World ρ → World ρ, Clear (f sim.world) →
      (f sim.world).served = sim.world.served →
      (sim.change f).Quiet ∧ (sim.change f).world.shutdown = (f sim.world).shutdown := by
    intro f hclear hserved
    rw [change_of_idle h.ready h.waiting f]
    refine ⟨⟨h.ready, h.waiting, hclear, ?_⟩, rfl⟩
    show _ ∉ (f sim.world).served
    rw [hserved]
    exact h.refused
  have hclear : ∀ shutdown, Clear { sim.world with shutdown } :=
    fun _ => ⟨h.clear.lock, h.clear.gated, h.clear.spawned⟩
  cases incident with
  | sends value =>
    show (sim.sendShutdown value).2.Quiet ∧ (sim.sendShutdown value).2.world.shutdown = _
    simp only [sendShutdown, Incident.signal]
    split
    · exact hchange (fun w => { w with shutdown := w.shutdown.send value }) (hclear _) rfl
    · exact ⟨h, rfl⟩
  | drops => exact hchange (fun w => { w with shutdown := w.shutdown.close }) (hclear _) rfl
  | elapses milliseconds =>
    show (sim.sleep milliseconds).Quiet ∧ (sim.sleep milliseconds).world.shutdown = _
    rw [h.sleep]
    exact ⟨⟨h.ready, h.waiting, ⟨h.clear.lock, h.clear.gated, h.clear.spawned⟩, h.refused⟩, rfl⟩
  | asks timestamp method target =>
    show (sim.knock timestamp method target).2.Quiet ∧
      (sim.knock timestamp method target).2.world.shutdown = _
    rw [h.knock]
    exact ⟨h, rfl⟩
  | works backend roster =>
    exact hchange (fun w => { w with crew := { w.crew with backend, roster } })
      ⟨h.clear.lock, h.clear.gated, h.clear.spawned⟩ rfl

theorem Quiet.undergo (h : sim.Quiet) (incidents : List (Incident ρ)) :
    (sim.undergo incidents).Quiet ∧
      (sim.undergo incidents).world.shutdown =
        incidents.foldl Incident.signal sim.world.shutdown := by
  induction incidents generalizing sim with
  | nil => exact ⟨h, rfl⟩
  | cons incident incidents ih =>
    obtain ⟨hquiet, hsignal⟩ := h.incur incident
    obtain ⟨hquiet', hsignals⟩ := ih hquiet
    rw [hsignal] at hsignals
    exact ⟨hquiet', hsignals⟩

end Quiet

end Simulation

end Caretaker.Service
