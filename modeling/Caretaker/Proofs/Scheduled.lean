import Caretaker.Proofs.Advance
import Caretaker.Proofs.Usage
import Caretaker.Service.Simulation

/-!
# Scheduled tasks are among the scenes

A pool runs its tasks in one order: the first of the queue goes on until it has to wait.  What it
comes to is what a scene comes to by some moves, so that what holds of all runs of scenes holds of
the service as it is run.

Simulated time stops at the ticks that tasks wait for.  They are all still to come, since a task
whose tick is due does not wait, and so time only passes, as it does in a scene.

Main definitions:

- `Simulation.Input`, `Simulation.feed`: what can be done to a service in simulated time.

Main statements:

- `Mirrors.turn`, `Mirrors.settle`: a scene can do what a pool does.
- `Mirrored.feed`: a scene can do what a simulated run does with one input.
- `Simulation.mirrored_feedAll`: what a simulated run comes to, a scene comes to.
-/

namespace Caretaker.Service

open Container (Backend)
open Script

variable {ρ : Type} [Backend ρ] {settings : Settings} {pool : Pool signature (World ρ) Ending}
  {s : Scene ρ}

/-- Whether a scene has the world and the tasks of a pool. -/
structure Mirrors (pool : Pool signature (World ρ) Ending) (s : Scene ρ) : Prop where
  world : s.world = pool.world
  ended : s.ended = pool.finished
  count : s.tasks.length = pool.nextNumber
  once : ((pool.ready ++ pool.waiting).map (·.number)).Nodup
  tasks : ∀ task ∈ pool.ready ++ pool.waiting, s.tasks[task.number]? = some (some task.script)

omit [Backend ρ] in
/-- The order in which tasks stand makes no difference. -/
theorem Mirrors.of_perm {pool' : Pool signature (World ρ) Ending} (h : Mirrors pool s)
    (hworld : pool'.world = pool.world) (hfinished : pool'.finished = pool.finished)
    (hnumber : pool'.nextNumber = pool.nextNumber)
    (hperm : (pool'.ready ++ pool'.waiting).Perm (pool.ready ++ pool.waiting)) :
    Mirrors pool' s where
  world := h.world.trans hworld.symm
  ended := h.ended.trans hfinished.symm
  count := h.count.trans hnumber.symm
  once := (hperm.map _).nodup_iff.2 h.once
  tasks := fun task hmem => h.tasks task (hperm.mem_iff.1 hmem)

theorem Mirrors.wake (h : Mirrors pool s) (settings : Settings) :
    Mirrors (pool.wake (World.host ρ settings)) s := by
  refine h.of_perm rfl rfl rfl ?_
  show (pool.ready ++ pool.waiting.filter _ ++ pool.waiting.filter _).Perm _
  rw [List.append_assoc]
  exact (List.filter_append_perm _ _).append_left _

omit [Backend ρ] in
/-- A script that becomes a task. -/
theorem Mirrors.spawn (h : Mirrors pool s) (script : Action Ending) :
    Mirrors (pool.spawn script) { s with tasks := s.tasks ++ [some script] } := by
  have hlt : ∀ task ∈ pool.ready ++ pool.waiting, task.number < s.tasks.length := fun task hmem =>
    (List.getElem?_eq_some_iff.1 (h.tasks task hmem)).1
  let new : Task signature Ending := ⟨pool.nextNumber, script⟩
  have hperm : (pool.ready ++ [new] ++ pool.waiting).Perm
      (new :: (pool.ready ++ pool.waiting)) := by
    rw [List.append_assoc]
    exact List.perm_middle
  refine {
    world := h.world
    ended := h.ended
    count := ?count
    once := ?once
    tasks := fun task hmem => ?tasks }
  case count =>
    show (s.tasks ++ [some script]).length = pool.nextNumber + 1
    rw [List.length_append, h.count]
    rfl
  case once =>
    refine (hperm.map (·.number)).nodup_iff.2 (List.nodup_cons.2 ⟨fun hmem => ?_, h.once⟩)
    obtain ⟨task, hmem, heq⟩ := List.mem_map.1 hmem
    have hless := hlt task hmem
    rw [heq, h.count] at hless
    exact Nat.lt_irrefl _ hless
  case tasks =>
    rcases List.mem_cons.1 (hperm.mem_iff.1 hmem) with rfl | hmem
    · show (s.tasks ++ [some script])[pool.nextNumber]? = some (some script)
      rw [← h.count, List.getElem?_concat_length]
    · exact (List.getElem?_append_left (hlt task hmem)).trans (h.tasks task hmem)

omit [Backend ρ] in
theorem Mirrors.spawns (h : Mirrors pool s) (scripts : List (Action Ending)) :
    Mirrors (scripts.foldl (fun pool script => pool.spawn script) pool)
      { s with tasks := s.tasks ++ scripts.map some } := by
  induction scripts generalizing pool s with
  | nil =>
    show Mirrors pool { s with tasks := s.tasks ++ [] }
    rw [List.append_nil]
    exact h
  | cons script scripts ih =>
    have hrest := ih (h.spawn script)
    rw [List.append_assoc] at hrest
    exact hrest

/-- What was spawned becomes tasks of both, in one order. -/
theorem Mirrors.adopt (h : Mirrors pool s) :
    Mirrors (pool.adopt (World.host ρ settings)) (s.step settings .adopts) := by
  let w : World ρ := { pool.world with spawned := [] }
  have hworld : Mirrors { pool with world := w } { s with world := w } :=
    ⟨rfl, h.ended, h.count, h.once, h.tasks⟩
  have hscene : s.step settings .adopts =
      { s with
        world := w
        tasks := s.tasks ++ (((World.host ρ settings).takeSpawned pool.world).1).map some } := by
    simp only [Scene.step, Scene.adopt, h.world]
    rfl
  rw [hscene]
  exact hworld.spawns _

/-- What a scene comes to by more moves after some, it comes to by moves. -/
theorem Scene.exists_run_of_run {p : Scene ρ → Prop} {moves : List (Move ρ)}
    (h : ∃ more, p ((s.run settings moves).run settings more)) :
    ∃ moves, p (s.run settings moves) := by
  obtain ⟨more, h⟩ := h
  refine ⟨moves ++ more, ?_⟩
  rw [Scene.run_append]
  exact h

omit [Backend ρ] in
theorem set_task {number : Nat} {task : Option (Action Ending)}
    (htask : s.tasks[number]? = some task) : s.tasks.set number task = s.tasks := by
  obtain ⟨hlt, rfl⟩ := List.getElem?_eq_some_iff.1 htask
  exact List.set_getElem_self hlt

/-- A task goes on in a scene as far as it does in a pool. -/
theorem advance_run (settings : Settings) {number : Nat} {script : Action Ending}
    (htask : s.tasks[number]? = some (some script)) :
    ∃ requests, ∃ s', s.run settings (List.replicate requests (.goesOn number false)) = s' ∧
      s'.world = (script.advance (World.attempt number) s.world).2 ∧ s'.ended = s.ended ∧
      s'.tasks = s.tasks.set number
        (some (script.advance (World.attempt number) s.world).1) := by
  induction script generalizing s with
  | done ending => exact ⟨0, s, rfl, rfl, rfl, (set_task htask).symm⟩
  | ask r next ih =>
    rcases hattempt : s.world.attempt number r with ⟨_ | answer, w⟩
    · -- It waits, after one request in vain.
      have hchoose := (World.choose_false number r s.world).trans hattempt
      refine ⟨1, _, Scene.goOn_of_waits htask hchoose, ?_⟩
      rw [Script.advance_of_waits hattempt]
      exact ⟨rfl, rfl, (set_task htask).symm⟩
    · have hchoose := (World.choose_false number r s.world).trans hattempt
      have hlt : number < s.tasks.length := (List.getElem?_eq_some_iff.1 htask).1
      obtain ⟨requests, s', hrun, hworld, hended, htasks⟩ :=
        ih answer (s := s.answered number r answer (next answer) w) (List.getElem?_set_self hlt)
      refine ⟨requests + 1, s', ?_, ?_, hended, ?_⟩
      · have hstep : s.step settings (.goesOn number false) = _ :=
          Scene.goOn_of_answer htask hchoose
        rw [← hrun, ← hstep]
        rfl
      · rw [Script.advance_of_answer hattempt]
        exact hworld
      · rw [Script.advance_of_answer hattempt, htasks]
        exact List.set_set _

omit [Backend ρ] in
/-- The first task goes on with something else, or ends. -/
theorem Mirrors.set (h : Mirrors pool s) {pool' : Pool signature (World ρ) Ending} {s' : Scene ρ}
    {task : Task signature Ending} {ready : List (Task signature Ending)}
    (hready : pool.ready = task :: ready) {script : Option (Action Ending)}
    (hworld : s'.world = pool'.world) (hended : s'.ended = pool'.finished)
    (hnumber : pool'.nextNumber = pool.nextNumber)
    (htasks : s'.tasks = s.tasks.set task.number script)
    (hperm : (pool'.ready ++ pool'.waiting).Perm
      ((script.map fun script => { task with script }).toList ++ (ready ++ pool.waiting))) :
    Mirrors pool' s' := by
  have honce := h.once
  rw [hready, List.cons_append, List.map_cons, List.nodup_cons] at honce
  have hlt : task.number < s.tasks.length := by
    refine (List.getElem?_eq_some_iff.1 (h.tasks task ?_)).1
    rw [hready]
    exact List.mem_cons_self
  refine {
    world := hworld
    ended := hended
    count := ?count
    once := ?once
    tasks := fun other hmem => ?tasks }
  case count =>
    rw [htasks, List.length_set, hnumber]
    exact h.count
  case once =>
    refine (hperm.map _).nodup_iff.2 ?_
    cases script with
    | none => exact honce.2
    | some script => exact List.nodup_cons.2 honce
  case tasks =>
    rw [htasks]
    rcases List.mem_append.1 (hperm.mem_iff.1 hmem) with hmem | hmem
    · cases script with
      | none => cases hmem
      | some script =>
        obtain rfl := List.mem_singleton.1 hmem
        exact List.getElem?_set_self hlt
    · have hne : task.number ≠ other.number := fun heq =>
        honce.1 (heq ▸ List.mem_map_of_mem hmem)
      refine (List.getElem?_set_ne hne).trans (h.tasks other ?_)
      rw [hready]
      exact List.mem_cons_of_mem _ hmem

/-- What one turn of a pool comes to, a scene comes to by some moves. -/
theorem Mirrors.turn (h : Mirrors pool s) (settings : Settings) :
    ∃ moves, Mirrors (pool.turn (World.host ρ settings)) (s.run settings moves) := by
  cases hready : pool.ready with
  | nil =>
    refine ⟨[], ?_⟩
    unfold Pool.turn
    rw [hready]
    exact h
  | cons task ready =>
    have htask : s.tasks[task.number]? = some (some task.script) :=
      h.tasks task (by rw [hready]; exact List.mem_cons_self)
    obtain ⟨requests, s', hrun, hworld, hended, htasks⟩ := advance_run settings htask
    rw [h.world] at hworld htasks
    let requested : List (Move ρ) := List.replicate requests (.goesOn task.number false)
    rcases hadvance : task.script.advance (World.attempt task.number) pool.world with ⟨script, w⟩
    rw [hadvance] at hworld htasks
    -- The moves of the task itself; what it spawned becomes tasks after them.
    cases script with
    | ask r next =>
      refine ⟨requested ++ [.adopts], ?_⟩
      rw [Pool.turn_of_ask hready hadvance, Scene.run_append, hrun]
      refine (Mirrors.adopt ?_).wake settings
      refine h.set hready hworld (hended.trans h.ended) rfl htasks ?_
      show (ready ++ (pool.waiting ++ [_])).Perm (_ :: (ready ++ pool.waiting))
      rw [← List.append_assoc]
      exact List.perm_append_singleton _ _
    | done ending =>
      have hdone : s'.tasks[task.number]? = some (some (.done ending)) := by
        rw [htasks]
        exact List.getElem?_set_self (List.getElem?_eq_some_iff.1 htask).1
      have hset : ∀ script, s'.tasks.set task.number script = s.tasks.set task.number script := by
        intro script
        rw [htasks, List.set_set]
      refine ⟨requested ++ [.goesOn task.number false, .adopts], ?_⟩
      rw [Scene.run_append, hrun]
      cases hresume : (World.host ρ settings).resume ending with
      | some script =>
        have hstep : s'.step settings (.goesOn task.number false) = _ :=
          Scene.goOn_of_resume hdone hresume
        rw [Pool.turn_of_resume hready hadvance hresume]
        show Mirrors _ ((s'.step settings (.goesOn task.number false)).step settings .adopts)
        rw [hstep]
        refine (Mirrors.adopt ?_).wake settings
        exact h.set hready hworld (hended.trans h.ended) rfl (hset _) (List.Perm.refl _)
      | none =>
        have hstep : s'.step settings (.goesOn task.number false) = _ :=
          Scene.goOn_of_end hdone hresume
        have hfinished : (task.number, ending) :: s'.ended =
            (task.number, ending) :: pool.finished := by
          rw [hended, h.ended]
        rw [Pool.turn_of_done hready hadvance hresume]
        show Mirrors _ ((s'.step settings (.goesOn task.number false)).step settings .adopts)
        rw [hstep]
        refine (Mirrors.adopt ?_).wake settings
        exact h.set hready hworld hfinished rfl (hset _) (List.Perm.refl _)

/-- What a pool settles to, a scene comes to by some moves. -/
theorem Mirrors.settle (h : Mirrors pool s) (turns : Nat) :
    ∃ moves, Mirrors (pool.settle (World.host ρ settings) turns) (s.run settings moves) := by
  induction turns generalizing pool s with
  | zero => exact ⟨[], h⟩
  | succ turns ih =>
    cases hready : pool.ready with
    | nil =>
      refine ⟨[], ?_⟩
      rw [Pool.settle_of_ready_nil hready]
      exact h
    | cons task ready =>
      obtain ⟨moves, hturn⟩ := h.turn settings
      rw [Pool.settle_of_ready_cons hready]
      exact Scene.exists_run_of_run (ih hturn)

/-! ## Rest -/

/-- Whether no task of a pool waits for what is there already. -/
def Rested (settings : Settings) (pool : Pool signature (World ρ) Ending) : Prop :=
  ∀ task ∈ pool.waiting, Pool.canGoOn (World.host ρ settings) pool.world task = false

theorem rested_wake (settings : Settings) (pool : Pool signature (World ρ) Ending) :
    Rested settings (pool.wake (World.host ρ settings)) := by
  intro task hmem
  obtain ⟨-, hwaits⟩ := List.mem_filter.1 hmem
  exact (Bool.not_eq_true' _).mp hwaits

/-- A turn ends with a wake. -/
theorem Rested.turn (h : Rested settings pool) :
    Rested settings (pool.turn (World.host ρ settings)) := by
  unfold Pool.turn
  split
  · exact h
  · exact rested_wake settings _

theorem Rested.settle (h : Rested settings pool) (turns : Nat) :
    Rested settings (pool.settle (World.host ρ settings) turns) := by
  induction turns generalizing pool with
  | zero => exact h
  | succ turns ih =>
    cases hready : pool.ready with
    | nil =>
      rw [Pool.settle_of_ready_nil hready]
      exact h
    | cons task ready =>
      rw [Pool.settle_of_ready_cons hready]
      exact ih h.turn

/-! ## Time -/

theorem clock_advance (number : Nat) (script : Action Ending) (w : World ρ) :
    (script.advance (World.attempt number) w).2.clock = w.clock := by
  induction script generalizing w with
  | done ending => rfl
  | ask r next ih =>
    have hframe := (World.attempt_frame w number r).1
    rcases hattempt : w.attempt number r with ⟨_ | answer, w'⟩
    · rw [Script.advance_of_waits hattempt]
      rwa [hattempt] at hframe
    · rw [Script.advance_of_answer hattempt]
      rw [hattempt] at hframe
      exact (ih answer w').trans hframe

omit [Backend ρ] in
theorem world_spawns (scripts : List (Action Ending))
    (pool : Pool signature (World ρ) Ending) :
    (scripts.foldl (fun pool script => pool.spawn script) pool).world = pool.world := by
  induction scripts generalizing pool with
  | nil => rfl
  | cons script scripts ih => exact ih _

theorem clock_adopt (settings : Settings) (pool : Pool signature (World ρ) Ending) :
    (pool.adopt (World.host ρ settings)).world.clock = pool.world.clock := by
  unfold Pool.adopt
  rw [world_spawns]
  rfl

/-- No time passes while tasks go on. -/
theorem clock_turn (settings : Settings) (pool : Pool signature (World ρ) Ending) :
    (pool.turn (World.host ρ settings)).world.clock = pool.world.clock := by
  cases hready : pool.ready with
  | nil =>
    unfold Pool.turn
    rw [hready]
  | cons task ready =>
    have hclock := clock_advance task.number task.script pool.world
    rcases hadvance : task.script.advance (World.attempt task.number) pool.world with ⟨script, w⟩
    rw [hadvance] at hclock
    cases script with
    | ask r next =>
      rw [Pool.turn_of_ask hready hadvance]
      exact (clock_adopt settings _).trans hclock
    | done ending =>
      cases hresume : (World.host ρ settings).resume ending with
      | some script =>
        rw [Pool.turn_of_resume hready hadvance hresume]
        exact (clock_adopt settings _).trans hclock
      | none =>
        rw [Pool.turn_of_done hready hadvance hresume]
        exact (clock_adopt settings _).trans hclock

theorem clock_settle (settings : Settings) (pool : Pool signature (World ρ) Ending)
    (turns : Nat) :
    (pool.settle (World.host ρ settings) turns).world.clock = pool.world.clock := by
  induction turns generalizing pool with
  | zero => rfl
  | succ turns ih =>
    cases hready : pool.ready with
    | nil => rw [Pool.settle_of_ready_nil hready]
    | cons task ready =>
      rw [Pool.settle_of_ready_cons hready, ih, clock_turn]

/-! ## Simulated runs -/

/-- What can be done to a service in simulated time.  To tell the news is not among it: that only
empties the logs. -/
inductive Simulation.Input (ρ : Type) where
  | submits (action : Action Result)
  | begins (activity : Activity)
  | changes (f : ρ → ρ)
  | holds (operation : Container.Operation)
  | letsPass (operation : Container.Operation)
  | publishes (refs : List ImageRefs)
  | dropsPublisher
  | takesImages
  | sends (value : Bool)
  | closes
  | sleeps (milliseconds : Nat)

namespace Simulation

/-- What a simulation comes to by an input. -/
def feed (sim : Simulation ρ) : Input ρ → Simulation ρ
  | .submits action => (sim.submit action).2
  | .begins activity => sim.begin activity
  | .changes f => sim.changeBackend f
  | .holds operation => sim.hold operation
  | .letsPass operation => sim.letPass operation
  | .publishes refs => (sim.publish refs).2
  | .dropsPublisher => sim.dropPublisher
  | .takesImages => sim.takeImages.2
  | .sends value => (sim.sendShutdown value).2
  | .closes => sim.closeShutdown
  | .sleeps milliseconds => sim.sleep milliseconds

/-- What a simulation comes to by inputs one after the other. -/
def feedAll (inputs : List (Input ρ)) (sim : Simulation ρ) : Simulation ρ :=
  inputs.foldl feed sim

end Simulation

/-- Whether a scene stands where a simulated run with some settings has settled. -/
structure Mirrored (settings : Settings) (sim : Simulation ρ) (s : Scene ρ) : Prop where
  same : sim.settings = settings
  pool : Mirrors sim.pool s
  rested : Rested settings sim.pool

namespace Mirrored

variable {sim : Simulation ρ}

/-- What a simulated run settles to, a scene comes to by some moves, whatever it did before. -/
theorem settle (sim : Simulation ρ) (hsame : sim.settings = settings) (h : Mirrors sim.pool s) :
    ∃ moves, Mirrored settings sim.settle (s.run settings moves) := by
  subst hsame
  obtain ⟨moves, hsettle⟩ := Mirrors.settle (h.wake sim.settings)
    (Simulation.turns (sim.pool.wake (World.host ρ sim.settings)))
  exact ⟨moves, rfl, hsettle, (rested_wake sim.settings sim.pool).settle _⟩

/-- A run that settles after something was begun. -/
theorem spawn (h : Mirrored settings sim s) (script : Action Ending) :
    ∃ moves, Mirrored settings
      (Simulation.settle { sim with pool := sim.pool.spawn script }) (s.run settings moves) := by
  let begun : Simulation ρ := { sim with pool := sim.pool.spawn script }
  obtain ⟨moves, hmoves⟩ := settle begun h.same (h.pool.spawn script)
  exact ⟨.begins script :: moves, hmoves⟩

/-- A run that settles after a change of the world that a move of a scene can make. -/
theorem change (h : Mirrored settings sim s) {f : World ρ → World ρ} (move : Move ρ)
    (hmove : s.step settings move = { s with world := f s.world }) :
    ∃ moves, Mirrored settings (sim.change f) (s.run settings moves) := by
  let changed : Simulation ρ := { sim with pool := { sim.pool with world := f sim.pool.world } }
  have hchanged : Mirrors changed.pool (s.step settings move) := by
    rw [hmove]
    exact ⟨congrArg f h.pool.world, h.pool.ended, h.pool.count, h.pool.once, h.pool.tasks⟩
  obtain ⟨moves, hmoves⟩ := settle changed h.same hchanged
  exact ⟨move :: moves, hmoves⟩

/-- A run that settles after other images were announced. -/
theorem announce (h : Mirrored settings sim s) (f : World ρ → ImageStore) :
    ∃ moves, Mirrored settings (sim.change fun w => { w with images := f w })
      (s.run settings moves) :=
  h.change (.announces (f s.world)) rfl

/-- A run that settles at a later time. -/
theorem elapse (h : Mirrored settings sim s) {time : Nat} (hle : sim.world.clock ≤ time) :
    ∃ moves, Mirrored settings (sim.change fun w => { w with clock := time })
      (s.run settings moves) := by
  have hle : s.world.clock ≤ time := h.pool.world ▸ hle
  refine h.change (.elapses (time - s.world.clock)) ?_
  simp only [Scene.step, Nat.add_sub_of_le hle]

/-- The ticks that tasks wait for are still to come. -/
theorem lt_of_awaited (h : Mirrored settings sim s) {tick : Nat}
    (hmem : tick ∈ sim.awaitedTicks) : sim.world.clock < tick := by
  obtain ⟨⟨number, script⟩, hwaiting, hasks⟩ := List.mem_filterMap.1 hmem
  have hwaits := h.rested _ hwaiting
  rcases script with ending | ⟨r, next⟩
  · cases hasks
  cases r with
  | tickOrShutdown nextTick seen =>
    obtain rfl : nextTick = tick := Option.some.inj hasks
    refine Nat.lt_of_not_le fun hdue => ?_
    have hticks : (sim.pool.world.attempt number (.tickOrShutdown nextTick seen)).1 =
        some .tick := by
      simp only [World.attempt]
      exact congrArg Prod.fst (if_pos hdue)
    simp only [Pool.canGoOn, World.host, hticks] at hwaits
    cases hwaits
  | _ => cases hasks

/-- A simulated sleep stops at one tick after the other. -/
theorem sleepUntil (h : Mirrored settings sim s) {deadline : Nat}
    (hle : sim.world.clock ≤ deadline) (stops : Nat) :
    ∃ moves, Mirrored settings (sim.sleepUntil deadline stops) (s.run settings moves) := by
  induction stops generalizing sim s with
  | zero => exact h.elapse hle
  | succ stops ih =>
    unfold Simulation.sleepUntil
    split
    · exact h.elapse hle
    · next tick htick =>
      obtain ⟨hawaited, hbefore⟩ := List.mem_filter.1 (List.min?_mem htick)
      obtain ⟨moves, hstop⟩ := h.elapse (Nat.le_of_lt (h.lt_of_awaited hawaited))
      have hclock : (sim.change fun w => { w with clock := tick }).world.clock ≤ deadline := by
        refine Nat.le_trans (Nat.le_of_eq ?_) (of_decide_eq_true hbefore)
        exact clock_settle sim.settings _ _
      exact Scene.exists_run_of_run (ih hstop hclock)

/-- What a simulation comes to by an input, a scene comes to by some moves. -/
theorem feed (h : Mirrored settings sim s) (input : Simulation.Input ρ) :
    ∃ moves, Mirrored settings (sim.feed input) (s.run settings moves) := by
  cases input with
  | submits action => exact h.spawn (.result <$> action)
  | begins activity =>
    obtain rfl := h.same
    exact h.spawn (.round <$> activity.round sim.settings)
  | changes f =>
    simp only [Simulation.feed, Simulation.changeBackend]
    exact h.change (.changes (f s.world.crew.backend)) rfl
  | holds operation =>
    simp only [Simulation.feed, Simulation.hold]
    exact h.change (.gates (operation :: s.world.crew.gated)) rfl
  | letsPass operation =>
    simp only [Simulation.feed, Simulation.letPass]
    exact h.change (.gates (s.world.crew.gated.filter (· ≠ operation))) rfl
  | publishes refs =>
    simp only [Simulation.feed, Simulation.publish]
    exact h.announce fun _ => _
  | dropsPublisher =>
    simp only [Simulation.feed, Simulation.dropPublisher]
    exact h.announce _
  | takesImages =>
    simp only [Simulation.feed, Simulation.takeImages]
    split
    · dsimp only
      exact h.announce _
    · exact ⟨[], h⟩
  | sends value =>
    simp only [Simulation.feed, Simulation.sendShutdown]
    split
    · next hopen =>
      dsimp only
      have hopen : s.world.shutdown.isOpen = true := h.pool.world ▸ hopen
      exact h.change (.sends value) (if_pos hopen)
    · exact ⟨[], h⟩
  | closes =>
    simp only [Simulation.feed, Simulation.closeShutdown]
    exact h.change .closes rfl
  | sleeps milliseconds => exact h.sleepUntil (Nat.le_add_right _ _) _

/-- What a simulation comes to by inputs one after the other. -/
theorem feedAll (h : Mirrored settings sim s) (inputs : List (Simulation.Input ρ)) :
    ∃ moves, Mirrored settings (sim.feedAll inputs) (s.run settings moves) := by
  induction inputs generalizing sim s with
  | nil => exact ⟨[], h⟩
  | cons input inputs ih =>
    obtain ⟨moves, hfed⟩ := h.feed input
    exact Scene.exists_run_of_run (ih hfed)

end Mirrored

/-- Everything that is done to a service in simulated time is among what moves do to a scene: the
world, the tasks and what they ended with are those of a scene after some moves. -/
theorem Simulation.mirrored_feedAll (settings : Settings) (backend : ρ) (images : ImageStore)
    (probe : Probe) (inputs : List (Input ρ)) :
    ∃ moves, Mirrored settings ((init settings backend images probe).feedAll inputs)
      ((Scene.fresh backend images probe).run settings moves) := by
  have hinit : Mirrors (init settings backend images probe).pool
      (Scene.fresh backend images probe) := {
    world := rfl
    ended := rfl
    count := rfl
    once := List.nodup_nil
    tasks := fun task hmem => absurd hmem List.not_mem_nil }
  have hrested : Rested settings (init settings backend images probe).pool :=
    fun task hmem => absurd hmem List.not_mem_nil
  exact Mirrored.feedAll ⟨rfl, hinit, hrested⟩ inputs

end Caretaker.Service
