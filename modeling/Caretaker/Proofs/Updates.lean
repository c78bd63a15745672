import Caretaker.Container.Memory
import Caretaker.Proofs.Advance
import Caretaker.Proofs.Course
import Caretaker.Service.Simulation

/-!
# The updates follow the image stream

The updates take the items of the image stream one after the other and apply each to both roles.
They go on until the stream ends, or until a replace failed so badly that nothing more should be
done.  Here they run while nobody else does anything, on a stream that holds its items already.

Main statements:

- `completes_updatesRound`: what one item does.
- `settle_updates`, `settle_begun`: what the updates do with all the items.
- `updates_attempt_what_differs`: they try to give a role its image at exactly those items where it
  is not the recorded one.
-/

namespace Caretaker

namespace Service

open Container (Backend)
open Crew (Account Attempted Exchange Performed RoleUpdate Taken Turn Visits changes isFatal place
  points recordedImage turnsOf)
open Script

variable {ρ : Type} [Backend ρ] {settings : Settings} {who : Nat} {w w' w'' : World ρ}

/-! ## What comes of an update -/

/-- The error of the first role whose replace failed fatally. -/
def firstFatal : List RoleUpdate → Option ReplaceError
  | [] => none
  | { result, .. } :: updates =>
    match result with
    | .ok _ => firstFatal updates
    | .error e => if e.isFatal then some e else firstFatal updates

/-- Whether one of the turns failed fatally, and with which error. -/
def Fails (turns : List Turn) (e : ReplaceError) : Prop :=
  ∃ turn ∈ turns, turn.result = .error e ∧ e.isFatal = true

theorem not_fails_of_ok {turns : List Turn} {e : ReplaceError}
    (h : ∀ turn ∈ turns, ∃ outcome, turn.result = .ok outcome) : ¬ Fails turns e := by
  rintro ⟨turn, hmem, herror, -⟩
  obtain ⟨outcome, hok⟩ := h turn hmem
  rw [hok] at herror
  cases herror

theorem firstFatal_eq_none_iff (refs : ImageRefs) {updates : List RoleUpdate} :
    firstFatal updates = none ↔ ∀ turn ∈ turnsOf refs updates, isFatal turn.result = false := by
  induction updates with
  | nil => simp [firstFatal, turnsOf]
  | cons update updates ih =>
    obtain ⟨role, result⟩ := update
    rw [turnsOf, List.map_cons, List.forall_mem_cons, ← turnsOf, ← ih]
    cases result with
    | ok outcome => simp [firstFatal, isFatal]
    | error e =>
      cases hfatal : e.isFatal with
      | true => simp [firstFatal, isFatal, hfatal]
      | false => simp [firstFatal, isFatal, hfatal]

theorem exists_of_firstFatal (refs : ImageRefs) {updates : List RoleUpdate} {e : ReplaceError}
    (h : firstFatal updates = some e) : Fails (turnsOf refs updates) e := by
  induction updates with
  | nil => cases h
  | cons update updates ih =>
    obtain ⟨role, result⟩ := update
    cases result with
    | ok outcome =>
      obtain ⟨turn, hmem, hturn⟩ := ih h
      exact ⟨turn, List.mem_cons_of_mem _ hmem, hturn⟩
    | error e' =>
      rw [firstFatal] at h
      split at h
      · next hfatal =>
        obtain rfl := Option.some.inj h
        exact ⟨_, List.mem_cons_self, rfl, hfatal⟩
      · obtain ⟨turn, hmem, hturn⟩ := ih h
        exact ⟨turn, List.mem_cons_of_mem _ hmem, hturn⟩

/-- The updates end and drop the stream. -/
theorem completes_leaving :
    (do
      Action.ask .leaveImages
      return none : Action Next).Completes (World.attempt who) w none
      { w with images := w.images.dropStream, updates := .ended } := rfl

/-- What became of the roles is told, and the first fatal failure ends the updates. -/
theorem completes_concludeUpdate (who : Nat) (updates : List RoleUpdate) (w : World ρ) :
    ∃ events, (concludeUpdate updates).Completes (World.attempt who) w (firstFatal updates).isNone
      { w with
        crew := { w.crew with events }
        fatal := ((firstFatal updates).map .replace).toList ++ w.fatal } := by
  induction updates generalizing w with
  | nil => exact ⟨w.crew.events, rfl⟩
  | cons update updates ih =>
    obtain ⟨role, result⟩ := update
    rcases result with e | ⟨image, containerId⟩ | _
    · cases hfatal : e.isFatal with
      | true =>
        refine ⟨w.crew.events, ?_⟩
        simp only [concludeUpdate, firstFatal, hfatal, if_true]
        rfl
      | false =>
        obtain ⟨events, hrest⟩ := ih (w := { w with crew := w.crew.tell _ })
        refine ⟨events, ?_⟩
        simp only [concludeUpdate, firstFatal, hfatal]
        exact (completes_log _ _ _ _).bind hrest
    · obtain ⟨events, hrest⟩ := ih _
      exact ⟨events, (completes_log _ _ _ _).bind hrest⟩
    · -- The message depends on the role, and nothing else does.
      cases role with
      | updater =>
        obtain ⟨events, hrest⟩ := ih _
        exact ⟨events, (completes_log _ _ _ _).bind hrest⟩
      | supervisor =>
        obtain ⟨events, hrest⟩ := ih _
        exact ⟨events, (completes_log _ _ _ _).bind hrest⟩

/-! ## One round -/

/-- A service that nothing holds up: nobody is in the lock, no call is held back, and no activity
was spawned. -/
structure Clear (w : World ρ) : Prop where
  lock : w.crew.lock = {}
  gated : w.crew.gated = []
  spawned : w.spawned = []

/-- A service whose crew took turns, and that is clear again. -/
structure Moved (settings : Settings) (turns : List Turn) (calls : List Exchange)
    (w w' : World ρ) : Prop where
  taken : Taken settings turns w.crew.roster calls w'.crew.roster
  performed : Performed (fun _ _ => False) w.crew.backend calls w'.crew.backend
  clear : Clear w'

theorem Moved.trans {turns turns' : List Turn} {calls calls' : List Exchange}
    (h : Moved settings turns calls w w') (h' : Moved settings turns' calls' w' w'') :
    Moved settings (turns ++ turns') (calls ++ calls') w w'' where
  taken := h.taken.append h'.taken
  performed := h.performed.trans h'.performed
  clear := h'.clear

theorem Moved.refl (hw : Clear w) : Moved settings [] [] w w := ⟨.nil _, .start, hw⟩

theorem Moved.of_crew {turns : List Turn} {calls : List Exchange}
    (h : Moved settings turns calls w w') (hcrew : w''.crew = w'.crew)
    (hspawned : w''.spawned = w'.spawned) : Moved settings turns calls w w'' where
  taken := by
    rw [hcrew]
    exact h.taken
  performed := by
    rw [hcrew]
    exact h.performed
  clear := by
    refine ⟨?_, ?_, hspawned.trans h.clear.spawned⟩
    · rw [hcrew]
      exact h.clear.lock
    · rw [hcrew]
      exact h.clear.gated

/-- Both roles have their turns at the next item of the stream.  The updates go on after it, unless
one of the turns failed fatally: that is told, and they end. -/
theorem completes_updatesRound (settings : Settings) (who : Nat) {refs : ImageRefs}
    {items : List ImageRefs} (hclear : Clear w)
    (hreceiver : w.images.receiver = .streaming) (hpending : w.images.pending = refs :: items) :
    ∃ turns calls crew w', w' = { w with crew, images := { w.images with pending := items } } ∧
      Visits (points [refs]) turns ∧ Moved settings turns calls w w' ∧
      ((∀ turn ∈ turns, isFatal turn.result = false) ∧
          (updatesRound settings).Completes (World.attempt who) w (some .updatesFrom) w' ∨
        ∃ e, Fails turns e ∧
          (updatesRound settings).Completes (World.attempt who) w none
            { w' with
              images := w'.images.dropStream
              updates := .ended
              fatal := .replace e :: w.fatal }) := by
  let told : World ρ := { w with
    images := { w.images with pending := items }
    crew := w.crew.tell
      { level := .info, component := .service, message := "Detected new images"
        fields := [("supervisor", refs.supervisor), ("updater", refs.updater),
          ("commit", refs.commit?.getD "")] } }
  let body := Crew.applyLocked settings refs [.updater, .supervisor]
  let updates := (body.run told.crew).1
  let applied : World ρ := { told with crew := (body.run told.crew).2 }
  have hnext : w.attempt who .nextImages =
      (some (some refs), { w with images := { w.images with pending := items } }) := by
    simp [World.attempt, ImageStore.poll?, hreceiver, hpending]
  have happly : (Action.ofCrew (Crew.apply settings refs [.updater, .supervisor])).Completes
      (World.attempt who) told updates applied :=
    completes_locked .exclusive hclear.lock hclear.gated Crew.ensures_applyLocked
  obtain ⟨account, hfits, calls, htaken, hcalls, -⟩ : ∃ s : Account,
      s.Fits (fun _ _ => False) told.crew.backend (body.run told.crew).2 ∧
      Crew.Took settings (turnsOf refs updates) told.crew.account s :=
    Crew.Transaction.ensures_run Crew.ensures_applyLocked
  have hvisits : Visits (points [refs]) (turnsOf refs updates) :=
    (Crew.yields_applyLocked settings refs [.updater, .supervisor]).run _ _
  obtain ⟨events, hconclude⟩ := completes_concludeUpdate who updates applied
  have hmoved : Moved settings (turnsOf refs updates) calls w
      { applied with crew := { applied.crew with events } } := by
    have hperformed := hfits.calls
    rw [hcalls] at hperformed
    refine ⟨?_, hperformed, ?_, ?_, hclear.spawned⟩
    · show Taken settings (turnsOf refs updates) w.crew.roster calls (body.run told.crew).2.roster
      rw [hfits.roster]
      exact htaken
    · exact (Crew.World.lock_run body told.crew).trans hclear.lock
    · exact (Crew.World.gated_run body told.crew).trans hclear.gated
  have hround : ∀ {next w'},
      (do
        if ← concludeUpdate updates then return some .updatesFrom
        else
          Action.ask .leaveImages
          return none : Action Next).Completes (World.attempt who) applied next w' →
      (updatesRound settings).Completes (World.attempt who) w next w' := fun hrest =>
    (completes_ask hnext).2 ((completes_log _ _ _ _).bind (happly.bind hrest))
  refine ⟨_, calls, _, _, rfl, hvisits, hmoved, ?_⟩
  cases hfatal : firstFatal updates with
  | none =>
    rw [hfatal] at hconclude
    exact .inl ⟨(firstFatal_eq_none_iff refs).1 hfatal,
      hround (hconclude.bind (completes_done _ _))⟩
  | some e =>
    rw [hfatal] at hconclude
    exact .inr ⟨e, exists_of_firstFatal refs hfatal, hround (hconclude.bind completes_leaving)⟩

/-! ## The updates as a task -/

section Pools

variable {pool pool' pool'' : Pool signature (World ρ) Ending}
  {task : Task signature Ending} {ready : List (Task signature Ending)}

/-- What becomes of the updates in a pool by their turns: they wait for more items, they end with
the stream, or they end with a fatal failure. -/
inductive ComesTo (task : Task signature Ending) (ready : List (Task signature Ending))
    (turns : List Turn) (pool : Pool signature (World ρ) Ending) :
    Pool signature (World ρ) Ending → Prop where
  | waits {crew : Crew.World ρ} {waiting : List (Task signature Ending)}
      (hturns : ∀ turn ∈ turns, isFatal turn.result = false)
      (hpublishers : pool.world.images.publishers.any id = true)
      (hwaiting : waiting.Perm (task :: pool.waiting)) :
      ComesTo task ready turns pool { pool with
        ready
        waiting
        world := { pool.world with
          crew
          images := { pool.world.images with pending := [] } } }
  | ends {crew : Crew.World ρ} (hturns : ∀ turn ∈ turns, isFatal turn.result = false)
      (hpublishers : pool.world.images.publishers.any id = false) :
      ComesTo task ready turns pool { pool with
        ready
        finished := (task.number, .round none) :: pool.finished
        world := { pool.world with
          crew
          images := { pool.world.images with receiver := .gone, pending := [] }
          updates := .ended } }
  | fails {crew : Crew.World ρ} {e : ReplaceError} (hfails : Fails turns e) :
      ComesTo task ready turns pool { pool with
        ready
        finished := (task.number, .round none) :: pool.finished
        world := { pool.world with
          crew
          images := { pool.world.images with receiver := .gone, pending := [] }
          updates := .ended
          fatal := .replace e :: pool.world.fatal } }

omit [Backend ρ] in
/-- What becomes of the updates does not depend on who was ready. -/
theorem ComesTo.of_ready {turns : List Turn} {ready' : List (Task signature Ending)}
    (h : ComesTo task ready turns { pool with ready := ready' } pool') :
    ComesTo task ready turns pool pool' := by
  cases h with
  | waits hturns hpublishers hperm => exact .waits hturns hpublishers hperm
  | ends hturns hpublishers => exact .ends hturns hpublishers
  | fails hfails => exact .fails hfails

/-- At the end of what the stream holds, the updates wait for more or end. -/
theorem turn_of_empty {number : Nat}
    (hready : pool.ready = Activity.updatesFrom.task settings number :: ready)
    (hwaiting : ∀ task ∈ pool.waiting, Patient settings pool.world task)
    (hclear : Clear pool.world) (hreceiver : pool.world.images.receiver = .streaming)
    (hpending : pool.world.images.pending = []) :
    ComesTo (Activity.updatesFrom.task settings number) ready [] pool
        (pool.turn (World.host ρ settings)) ∧
      Moved settings [] [] pool.world (pool.turn (World.host ρ settings)).world := by
  cases hpublishers : pool.world.images.publishers.any id with
  | true =>
    have hattempt : pool.world.attempt number .nextImages = (none, pool.world) := by
      simp [World.attempt, ImageStore.poll?, hreceiver, hpending, hpublishers]
    obtain ⟨next, hround⟩ : ∃ next, Ending.round <$> updatesRound settings =
        Script.ask (S := signature) .nextImages next := ⟨_, rfl⟩
    rw [turn_of_activity hready hround hattempt hclear.spawned
      fun other hmem => hwaiting other hmem _ rfl rfl]
    refine ⟨?_, .refl hclear⟩
    have himages : { pool.world.images with pending := [] } = pool.world.images := by
      rw [← hpending]
    have hcomes : ComesTo (Activity.updatesFrom.task settings number) ready [] pool { pool with
        ready
        waiting := pool.waiting ++ [Activity.updatesFrom.task settings number]
        world := { pool.world with images := { pool.world.images with pending := [] } } } :=
      .waits (List.forall_mem_nil _) hpublishers List.perm_append_comm
    rw [himages] at hcomes
    exact hcomes
  | false =>
    have hattempt : pool.world.attempt number .nextImages = (some none, pool.world) := by
      simp [World.attempt, ImageStore.poll?, hreceiver, hpending, hpublishers]
    have hround : (updatesRound settings).Completes (World.attempt number) pool.world none _ :=
      (completes_ask hattempt).2
        ((completes_log _ _ _ _).bind completes_leaving)
    have hdropped : pool.world.images.dropStream =
        { pool.world.images with receiver := .gone, pending := [] } := by
      rw [ImageStore.dropStream, if_pos hreceiver]
    rw [turn_of_end hready (hround.map Ending.round) rfl hclear.spawned
      fun other hmem => hwaiting other hmem _ rfl rfl]
    refine ⟨?_, .nil _, .start, hclear.lock, hclear.gated, hclear.spawned⟩
    rw [hdropped]
    exact .ends (List.forall_mem_nil _) hpublishers

/-- The updates take all that the stream holds, up to a fatal failure. -/
theorem settle_updates {number : Nat} {items : List ImageRefs}
    (hready : pool.ready = Activity.updatesFrom.task settings number :: ready)
    (hwaiting : ∀ task ∈ pool.waiting, Patient settings pool.world task)
    (hclear : Clear pool.world) (hreceiver : pool.world.images.receiver = .streaming)
    (hpending : pool.world.images.pending = items) :
    ∃ turns calls pool' needed, needed ≤ items.length + 1 ∧
      (∀ fuel, pool.settle (World.host ρ settings) (needed + fuel) =
        pool'.settle (World.host ρ settings) fuel) ∧
      Visits (points items) turns ∧ Moved settings turns calls pool.world pool'.world ∧
      ComesTo (Activity.updatesFrom.task settings number) ready turns pool pool' := by
  induction items generalizing pool with
  | nil =>
    obtain ⟨hcomes, hmoved⟩ := turn_of_empty hready hwaiting hclear hreceiver hpending
    refine ⟨[], [], _, 1, Nat.le_refl _, fun fuel => ?_, .nil, hmoved, hcomes⟩
    rw [Nat.add_comm, Pool.settle_of_ready_cons hready]
  | cons refs items ih =>
    obtain ⟨turns, calls, crew, w', rfl, hvisits, hmoved, hround⟩ :=
      completes_updatesRound settings number hclear hreceiver hpending
    rcases hround with ⟨hturns, hround⟩ | ⟨e, hfails, hround⟩
    · -- The stream goes on with the items that are left.
      have hturn := turn_of_round hready (hround.map Ending.round) hmoved.clear.spawned
        fun other hmem => hwaiting other hmem _ rfl rfl
      let next : Pool signature (World ρ) Ending := { pool with
        world := { pool.world with crew, images := { pool.world.images with pending := items } }
        ready := Activity.updatesFrom.task settings number :: ready }
      have hnext : next.ready = Activity.updatesFrom.task settings number :: ready := rfl
      obtain ⟨turns', calls', pool', needed, hneeded, hsettle, hvisits', hmoved', hcomes⟩ :=
        ih hnext hwaiting hmoved.clear hreceiver rfl
      refine ⟨turns ++ turns', calls ++ calls', pool', needed + 1, ?_, fun fuel => ?_,
        hvisits.append hturns hvisits', hmoved.trans hmoved', ?_⟩
      · simpa using hneeded
      · rw [Nat.add_right_comm, Pool.settle_of_ready_cons hready, hturn]
        exact hsettle fuel
      · cases hcomes with
        | waits hturns' hpublishers hperm =>
          exact .waits (List.forall_mem_append.2 ⟨hturns, hturns'⟩) hpublishers hperm
        | ends hturns' hpublishers =>
          exact .ends (List.forall_mem_append.2 ⟨hturns, hturns'⟩) hpublishers
        | fails hfails =>
          obtain ⟨turn, hmem, hturn⟩ := hfails
          exact .fails ⟨turn, List.mem_append_right _ hmem, hturn⟩
    · -- Nothing is done after a fatal failure.
      have hturn := turn_of_end hready (hround.map Ending.round) rfl hmoved.clear.spawned
        fun other hmem => hwaiting other hmem _ rfl rfl
      have hdropped : ImageStore.dropStream { pool.world.images with pending := items } =
          { pool.world.images with receiver := .gone, pending := [] } := by
        rw [ImageStore.dropStream, if_pos hreceiver]
      refine ⟨turns, calls, pool.turn (World.host ρ settings), 1, Nat.le_add_left _ _,
        fun fuel => ?_, ?_, ?_, ?_⟩
      · rw [Nat.add_comm, Pool.settle_of_ready_cons hready]
      · obtain ⟨turn, hmem, herror, hfatal⟩ := hfails
        exact hvisits.append_of_fatal ⟨turn, hmem, by rw [herror]; exact hfatal⟩
      · rw [hturn]
        exact hmoved.of_crew rfl rfl
      · rw [hturn, hdropped]
        exact .fails hfails

/-- The updates begin, and take all that the stream holds. -/
theorem settle_begun {number : Nat} {items : List ImageRefs}
    (hready : pool.ready = Activity.updates.task settings number :: ready)
    (hwaiting : ∀ task ∈ pool.waiting, Patient settings pool.world task)
    (hclear : Clear pool.world) (hreceiver : pool.world.images.receiver = .streaming)
    (hpending : pool.world.images.pending = items) :
    ∃ turns calls crew pool' needed, needed ≤ items.length + 2 ∧
      (∀ fuel, pool.settle (World.host ρ settings) (needed + fuel) =
        pool'.settle (World.host ρ settings) fuel) ∧
      Visits (points items) turns ∧ Moved settings turns calls pool.world pool'.world ∧
      ComesTo (Activity.updatesFrom.task settings number) ready turns
        { pool with world := { pool.world with crew } } pool' := by
  -- The first round only tells that the updates began.
  let told : World ρ := { pool.world with
    crew := pool.world.crew.tell
      { level := .info, component := .service, message := "Watching for new images"
        fields := [] } }
  have hround : (Activity.updates.round settings).Completes (World.attempt number) pool.world
      (some .updatesFrom) told := (completes_log _ _ _ _).bind (completes_done _ _)
  have hturn := turn_of_round hready (hround.map Ending.round) hclear.spawned
    fun other hmem => hwaiting other hmem _ rfl rfl
  let begun : Pool signature (World ρ) Ending := { pool with
    world := told
    ready := Activity.updatesFrom.task settings number :: ready }
  have hbegun : begun.ready = Activity.updatesFrom.task settings number :: ready := rfl
  have htold : Moved settings [] [] pool.world told :=
    ⟨.nil _, .start, hclear.lock, hclear.gated, hclear.spawned⟩
  obtain ⟨turns, calls, pool', needed, hneeded, hsettle, hvisits, hmoved, hcomes⟩ :=
    settle_updates hbegun hwaiting htold.clear hreceiver hpending
  refine ⟨turns, calls, told.crew, pool', needed + 1, Nat.succ_le_succ hneeded, fun fuel => ?_,
    hvisits, htold.trans hmoved, hcomes.of_ready⟩
  rw [Nat.add_right_comm, Pool.settle_of_ready_cons hready, hturn]
  exact hsettle fuel

end Pools

/-! ## The updates alone -/

namespace Simulation

/-- A service on which nothing goes on, with an image stream that was handed out and holds
`items`. -/
structure Holds (items : List ImageRefs) (sim : Simulation ρ) : Prop where
  ready : sim.pool.ready = []
  waiting : sim.pool.waiting = []
  clear : Clear sim.world
  receiver : sim.world.images.receiver = .streaming
  pending : sim.world.images.pending = items

omit [Backend ρ] in
/-- The number of turns is enough for the items of the stream. -/
theorem length_lt_turns (pool : Pool signature (World ρ) Ending) :
    pool.world.images.pending.length + 1 < turns pool := by
  have hpositive : 1 ≤ pool.ready.length + pool.waiting.length + 8 := by omega
  have hle := Nat.mul_le_mul_right (pool.world.images.pending.length + pool.world.clock + 8)
    (Nat.mul_le_mul_left 16 hpositive)
  simp only [turns]
  omega

/-- The updates alone give the roles the turns that the stream has in store. -/
theorem begin_updates {items : List ImageRefs} {sim : Simulation ρ} (h : sim.Holds items) :
    ∃ turns calls crew, Visits (points items) turns ∧
      Moved sim.settings turns calls sim.world (sim.begin .updates).world ∧
      ComesTo (Activity.updatesFrom.task sim.settings sim.pool.nextNumber) [] turns
        { sim.pool with
          nextNumber := sim.pool.nextNumber + 1
          world := { sim.world with crew } } (sim.begin .updates).pool := by
  let number := sim.pool.nextNumber
  let pool := sim.pool.spawn (.round <$> Activity.updates.round sim.settings)
  have hready : pool.ready = [Activity.updates.task sim.settings number] := by
    show sim.pool.ready ++ [_] = [_]
    rw [h.ready]
    rfl
  have hwaiting : pool.waiting = [] := h.waiting
  have hbegin : (sim.begin .updates).pool =
      pool.settle (World.host ρ sim.settings) (turns pool) := by
    have hwake : pool.wake (World.host ρ sim.settings) = pool :=
      wake_of_none (by simp [hwaiting])
    show (pool.wake (World.host ρ sim.settings)).settle (World.host ρ sim.settings)
      (turns (pool.wake (World.host ρ sim.settings))) = _
    rw [hwake]
  obtain ⟨turns, calls, crew, pool', needed, hneeded, hsettle, hvisits, hmoved, hcomes⟩ :=
    settle_begun hready (by simp [hwaiting]) h.clear h.receiver h.pending
  obtain ⟨fuel, hfuel⟩ : ∃ fuel, Simulation.turns pool = needed + fuel := by
    have hlt := length_lt_turns pool
    have hpending : pool.world.images.pending = items := h.pending
    rw [hpending] at hlt
    exact ⟨Simulation.turns pool - needed, by omega⟩
  have hnone : pool'.ready = [] := by cases hcomes <;> rfl
  have hpool : (sim.begin .updates).pool = pool' := by
    rw [hbegin, hfuel, hsettle, Pool.settle_of_ready_nil hnone]
  refine ⟨turns, calls, crew, hvisits, ?_, ?_⟩
  · show Moved sim.settings turns calls sim.world (sim.begin .updates).pool.world
    rw [hpool]
    exact hmoved
  · rw [hpool]
    exact hcomes.of_ready

/-- The updates alone try to give a role its image at an item iff no fatal failure came before and
the image is not the recorded one: that of the latest success, or the one at the start.

So an image that comes again is not given again after a success, it is tried again after a failure,
and in a run without failures a role is given an image as often as its image changes. -/
theorem updates_attempt_what_differs {items : List ImageRefs} {sim : Simulation ρ}
    (h : sim.Holds items) :
    ∃ turns calls,
      Taken sim.settings turns sim.world.crew.roster calls
        (sim.begin .updates).world.crew.roster ∧
      Performed (fun _ _ => False) sim.world.crew.backend calls
        (sim.begin .updates).world.crew.backend ∧
      Visits (points items) turns ∧
      (∀ i role refs, items[i]? = some refs →
        (Attempted turns i role ↔
          (∀ turn ∈ turns.take (place i role), isFatal turn.result = false) ∧
            recordedImage sim.world.crew.roster (turns.take (place i role)) role ≠
              some (refs.of role))) ∧
      (∀ i j role turn outcome, i < j → turns[place i role]? = some turn →
        turn.result = .ok outcome →
        (∀ k refs, i < k → k ≤ j → items[k]? = some refs → refs.of role = turn.refs.of role) →
        ¬ Attempted turns j role) ∧
      (∀ i j role turn e refs, i < j → turns[place i role]? = some turn →
        turn.result = .error e → items[j]? = some refs → refs.of role = turn.refs.of role →
        (∀ k refs, i < k → k < j → items[k]? = some refs → refs.of role ≠ turn.refs.of role) →
        (∀ turn ∈ turns.take (place j role), isFatal turn.result = false) →
        Attempted turns j role) ∧
      ((∀ turn ∈ turns, ∃ outcome, turn.result = .ok outcome) → ∀ role,
        (turns.filter fun turn => turn.role = role && turn.attempted).length =
            changes (sim.world.crew.roster.slot role).image (items.map (·.of role)) ∧
          ((sim.begin .updates).world.crew.roster.slot role).image =
            (items.map (·.of role)).getLast?.or (sim.world.crew.roster.slot role).image) := by
  obtain ⟨turns, calls, -, hvisits, hmoved, -⟩ := begin_updates h
  refine ⟨turns, calls, hmoved.taken, hmoved.performed, hvisits, ?_, ?_, ?_, ?_⟩
  · intro i role refs hitem
    exact hvisits.attempted_iff hmoved.taken hitem
  · intro i j role turn outcome hij hturn hok hsame
    exact hvisits.not_attempted_of_ok hmoved.taken hturn hok hij hsame
  · intro i j role turn e refs hij hturn herror hitem hsame hothers hreached
    exact hvisits.attempted_of_error hmoved.taken hturn herror hij hitem hsame hothers hreached
  · intro hok role
    exact hvisits.count_attempted hmoved.taken role hok

/-- A service with nothing launched and a stream of three items, of which the last two are equal. -/
def streaming : Simulation Container.Memory where
  settings := Crew.developmentSettings
  pool := { world := {
    crew := { backend := {} }
    images := {
      embedded := Crew.Sample.refs "sup:v0"
      publishers := []
      receiver := .streaming
      pending := [Crew.Sample.refs "sup:v1", Crew.Sample.refs "sup:v2", Crew.Sample.refs "sup:v2"] }
    probe := .failingAt [] none } }

theorem updates_attempt_what_differs_streaming :
    streaming.Holds
        [Crew.Sample.refs "sup:v1", Crew.Sample.refs "sup:v2", Crew.Sample.refs "sup:v2"] ∧
      ∃ turns calls,
        Taken streaming.settings turns {} calls
          (streaming.begin .updates).world.crew.roster ∧
        Attempted turns 0 .updater := by
  have holds : streaming.Holds
      [Crew.Sample.refs "sup:v1", Crew.Sample.refs "sup:v2", Crew.Sample.refs "sup:v2"] :=
    ⟨rfl, rfl, ⟨rfl, rfl, rfl⟩, rfl, rfl⟩
  obtain ⟨turns, calls, htaken, -, -, hattempted, -⟩ := updates_attempt_what_differs holds
  refine ⟨holds, turns, calls, htaken, ?_⟩
  -- Nothing was recorded before the first item, and nothing could fail.
  refine (hattempted 0 .updater _ rfl).2 ⟨?_, ?_⟩
  · intro turn hmem
    cases hmem
  · intro hrecorded
    cases hrecorded

end Simulation

end Service
end Caretaker
