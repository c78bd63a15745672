import Caretaker.Proofs.Alone
import Caretaker.Service.World

/-!
# Tasks that need not wait

A task goes on until it has to wait.  Where every request is answered at once it goes on to its end,
and what it does there is what its script does.  An operation on the crew need not wait while nobody
is in the lock and no call is held back.

Main statements:

- `Script.Completes.bind`: scripts in a row.
- `completes_locked`, `completes_ifFree`: an operation that finds the lock free does its work and
  leaves the lock free.
- `Pool.turn_of_ask`, `Pool.turn_of_resume`, `Pool.turn_of_done`: what a turn comes to.
- `turn_of_round`, `turn_of_end`, `turn_of_wait`: what the turn of a task comes to that wakes
  nobody.
-/

namespace Caretaker

namespace Script

variable {S : Signature} {W α β : Type}
  {attempt : (r : S.Request) → W → Option (S.Answer r) × W}

/-- Whether a script, begun in a world, goes on to its end without waiting. -/
def Completes (attempt : (r : S.Request) → W → Option (S.Answer r) × W) (script : Script S α)
    (w : W) (value : α) (w' : W) : Prop :=
  script.advance attempt w = (.done value, w')

theorem completes_done (value : α) (w : W) :
    (Script.done value : Script S α).Completes attempt w value w := rfl

/-- A script goes on with the answer to its first request. -/
theorem advance_of_answer {r : S.Request} {next : S.Answer r → Script S α} {w w' : W}
    {answer : S.Answer r} (h : attempt r w = (some answer, w')) :
    (Script.ask r next).advance attempt w = (next answer).advance attempt w' := by
  rw [advance, h]

theorem completes_ask {r : S.Request} {next : S.Answer r → Script S α} {w w' : W}
    {answer : S.Answer r} (h : attempt r w = (some answer, w')) {value : α} {w'' : W} :
    (Script.ask r next).Completes attempt w value w'' ↔
      (next answer).Completes attempt w' value w'' := by
  unfold Completes
  rw [advance_of_answer h]

/-- A script whose first request is not answered stays where it is. -/
theorem advance_of_waits {r : S.Request} {next : S.Answer r → Script S α} {w w' : W}
    (h : attempt r w = (none, w')) :
    (Script.ask r next).advance attempt w = (.ask r next, w') := by
  rw [advance, h]

/-- A script in front of another one, where the first need not wait. -/
theorem Completes.advance_bind {script : Script S α} {f : α → Script S β} {w w' : W} {value : α}
    (h : script.Completes attempt w value w') :
    (script >>= f).advance attempt w = (f value).advance attempt w' := by
  induction script generalizing w with
  | done value' =>
    obtain ⟨hvalue, rfl⟩ := Prod.mk.inj h
    obtain rfl := Script.done.inj hvalue
    rfl
  | ask r next ih =>
    cases hattempt : attempt r w with
    | mk answer w₁ =>
      cases answer with
      | none =>
        -- A script that waits is not at its end.
        unfold Completes at h
        rw [advance, hattempt] at h
        cases h
      | some answer =>
        rw [ask_bind, advance, hattempt]
        exact ih answer ((completes_ask hattempt).1 h)

theorem Completes.bind {script : Script S α} {f : α → Script S β} {w w' w'' : W} {value : α}
    {value' : β} (h : script.Completes attempt w value w')
    (hf : (f value).Completes attempt w' value' w'') :
    (script >>= f).Completes attempt w value' w'' := by
  unfold Completes
  rw [h.advance_bind]
  exact hf

theorem Completes.map {script : Script S α} (f : α → β) {w w' : W} {value : α}
    (h : script.Completes attempt w value w') :
    (f <$> script).Completes attempt w (f value) w' := by
  rw [map_eq_pure_bind]
  exact h.bind (completes_done _ _)

end Script

/-! ## Turns -/

namespace Pool

variable {S : Signature} {W α : Type} {host : Host S W α} {pool : Pool S W α} {task : Task S α}
  {ready : List (Task S α)} {w : W}

/-- The turn of a task that has to wait. -/
theorem turn_of_ask {r : S.Request} {next : S.Answer r → Script S α}
    (hready : pool.ready = task :: ready)
    (hadvance : task.script.advance (host.attempt task.number) pool.world = (.ask r next, w)) :
    pool.turn host =
      (adopt host { pool with
        world := w
        ready
        waiting := pool.waiting ++ [{ task with script := .ask r next }] }).wake host := by
  unfold turn
  rw [hready]
  simp only [hadvance]

/-- The turn of a task that goes on with something else. -/
theorem turn_of_resume {value : α} {script : Script S α} (hready : pool.ready = task :: ready)
    (hadvance : task.script.advance (host.attempt task.number) pool.world = (.done value, w))
    (hresume : host.resume value = some script) :
    pool.turn host =
      (adopt host { pool with
        world := w
        ready := { task with script } :: ready }).wake host := by
  unfold turn
  rw [hready]
  simp only [hadvance, hresume]

/-- The turn of a task that ends for good. -/
theorem turn_of_done {value : α} (hready : pool.ready = task :: ready)
    (hadvance : task.script.advance (host.attempt task.number) pool.world = (.done value, w))
    (hresume : host.resume value = none) :
    pool.turn host =
      (adopt host { pool with
        world := w
        ready
        finished := (task.number, value) :: pool.finished }).wake host := by
  unfold turn
  rw [hready]
  simp only [hadvance, hresume]

theorem settle_of_ready_nil (hready : pool.ready = []) (fuel : Nat) :
    pool.settle host fuel = pool := by
  cases fuel with
  | zero => rfl
  | succ fuel =>
    unfold settle
    rw [hready]

theorem settle_of_ready_cons (hready : pool.ready = task :: ready) (fuel : Nat) :
    pool.settle host (fuel + 1) = (pool.turn host).settle host fuel := by
  rw [settle.eq_def]
  simp only [hready]

end Pool

/-! ## Operations on the crew -/

namespace Service

open Container (Backend)
open Crew (Account Transaction FairLock Access)
open Script
open Caretaker.Service.Action (ofCrew)

variable {ρ : Type} [Backend ρ] {who : Nat} {w : World ρ}

/-- An event of the service is told at once. -/
theorem completes_log (component : Component) (level : Level) (message : String)
    (fields : List (String × EventValue)) :
    (Action.log component level message fields).Completes (World.attempt who) w ()
      { w with crew := w.crew.tell { level, component, message, fields } } := rfl

/-- Work under the lock need not wait when no call is held back. -/
theorem completes_work {α : Type} {outside : ρ → ρ → Prop} {b : ρ} {body : Transaction α}
    {account : Account} {post : α → Account → Prop} (hgated : w.crew.gated = [])
    (hfits : account.Fits outside b w.crew) (hbody : body.Ensures Account.rule post account) :
    (ofCrew body).Completes (World.attempt who) w (body.run w.crew).1
      { w with crew := (body.run w.crew).2 } := by
  induction body generalizing w account with
  | done value => rfl
  | ask r next ih =>
    -- The account goes on with the answer, so that the rest follows by induction.
    have hlocking : r.isLocking = false := Account.isLocking_of_rule hbody
    have hattempt : w.attempt who (.crew r) =
        (some (w.crew.answer r).1, { w with crew := (w.crew.answer r).2 }) := by
      rw [World.attempt, Crew.World.attempt_of_answer hgated hlocking]
    obtain ⟨account', hfits', hnext⟩ := hfits.answer hbody
    have hgated' : (w.crew.answer r).2.gated = [] :=
      (Crew.World.gated_answer w.crew r).trans hgated
    exact (completes_ask hattempt).2 (ih _ hgated' hfits' hnext)

section Locked

variable {α : Type} {body : Transaction α} {post : α → Account → Prop}

/-- Work under the lock goes on to its end, and leaves the lock free if nobody else is in it. -/
theorem completes_thenUnlock (access : Access) (hfree : w.crew.lock = {})
    (hgated : w.crew.gated = []) (hbody : body.Ensures Account.rule post w.crew.account) :
    (ofCrew (Crew.thenUnlock body)).Completes (World.attempt who)
      { w with crew := { w.crew with lock := { holders := [(who, access)] } } } (body.run w.crew).1
      { w with crew := (body.run w.crew).2 } := by
  let held : FairLock := { holders := [(who, access)] }
  let entered : World ρ := { w with crew := { w.crew with lock := held } }
  have hwork : (ofCrew body).Completes (World.attempt who) entered (body.run w.crew).1
      { w with crew := { (body.run w.crew).2 with lock := held } } := by
    have hfits : w.crew.account.Fits (fun _ _ => False) w.crew.backend entered.crew :=
      ⟨rfl, rfl, .start⟩
    have hrun : (ofCrew body).Completes (World.attempt who) entered (body.run entered.crew).1
        { entered with crew := (body.run entered.crew).2 } := completes_work hgated hfits hbody
    rwa [Crew.World.run_with_lock] at hrun
  have hunlock : World.attempt who (.crew .unlock)
      { w with crew := { (body.run w.crew).2 with lock := held } } =
      (some (), { w with crew := (body.run w.crew).2 }) := by
    -- The one holder is gone, and the lock is as it was.
    have hrelease : held.release who = {} := by
      simp [held, FairLock.release, FairLock.handOver]
    have hlock : (body.run w.crew).2.lock = {} := (Crew.World.lock_run body w.crew).trans hfree
    have hcrew : { (body.run w.crew).2 with lock := held.release who } = (body.run w.crew).2 := by
      rw [hrelease, ← hlock]
    show (some (), { w with crew := { (body.run w.crew).2 with lock := held.release who } }) = _
    rw [hcrew]
  rw [Crew.thenUnlock, Action.ofCrew_bind]
  exact hwork.bind ((completes_ask hunlock).2 (completes_done _ _))

/-- An operation that finds the lock free does its work, and leaves the lock free. -/
theorem completes_locked (access : Access) (hfree : w.crew.lock = {}) (hgated : w.crew.gated = [])
    (hbody : body.Ensures Account.rule post w.crew.account) :
    (ofCrew (Transaction.locked access body)).Completes (World.attempt who) w (body.run w.crew).1
      { w with crew := (body.run w.crew).2 } := by
  have hlock : w.attempt who (.crew (.lock access)) = (some (), { w with
      crew := { w.crew with lock := { holders := [(who, access)] } } }) := by
    rw [World.attempt, Crew.Session.attempt_lock, hfree]
    cases access <;> rfl
  exact (completes_ask hlock).2 (completes_thenUnlock access hfree hgated hbody)

/-- An operation that does not wait for the lock does its work when it finds the lock free. -/
theorem completes_ifFree (otherwise : Transaction α) (hfree : w.crew.lock = {})
    (hgated : w.crew.gated = []) (hbody : body.Ensures Account.rule post w.crew.account) :
    (ofCrew (Transaction.ifFree body otherwise)).Completes (World.attempt who) w
      (body.run w.crew).1 { w with crew := (body.run w.crew).2 } := by
  have hlock : w.attempt who (.crew .tryLock) = (some true, { w with
      crew := { w.crew with lock := { holders := [(who, .shared)] } } }) := by
    show (some (w.crew.lock.tryShared who).1, { w with
      crew := { w.crew with lock := (w.crew.lock.tryShared who).2 } }) = _
    rw [hfree]
    rfl
  exact (completes_ask hlock).2 (completes_thenUnlock .shared hfree hgated hbody)

end Locked

/-! ## Turns of the service -/

/-- The task of an activity at the begin of a round. -/
def Activity.task (settings : Settings) (number : Nat) (activity : Activity) :
    Task signature Ending := ⟨number, .round <$> activity.round settings⟩

/-- A task that waits for nothing but time to pass or the shutdown. -/
def Patient (settings : Settings) (w : World ρ) (task : Task signature Ending) : Prop :=
  ∀ w' : World ρ, w'.clock = w.clock → w'.shutdown = w.shutdown →
    Pool.canGoOn (World.host ρ settings) w' task = false

section Pools

variable {settings : Settings} {pool : Pool signature (World ρ) Ending}
  {task : Task signature Ending} {ready others : List (Task signature Ending)}

theorem adopt_of_spawned_nil (hspawned : pool.world.spawned = []) :
    pool.adopt (World.host ρ settings) = pool := by
  obtain ⟨world, nextNumber, ready, waiting, finished⟩ := pool
  obtain ⟨crew, images, probe, checked, clock, shutdown, served, updates, claimable, fatal,
    spawned⟩ := world
  obtain rfl : spawned = [] := hspawned
  rfl

/-- Nobody wakes where nobody can go on. -/
theorem wake_of_none
    (h : ∀ task ∈ pool.waiting,
      Pool.canGoOn (World.host ρ settings) pool.world task = false) :
    pool.wake (World.host ρ settings) = pool := by
  have hready : pool.waiting.filter (Pool.canGoOn (World.host ρ settings) pool.world) = [] :=
    List.filter_eq_nil_iff.2 fun task hmem => by simp [h task hmem]
  have hwaiting : pool.waiting.filter (!Pool.canGoOn (World.host ρ settings) pool.world ·) =
      pool.waiting := List.filter_eq_self.2 fun task hmem => by simp [h task hmem]
  simp only [Pool.wake, hready, hwaiting, List.append_nil]

/-- The one task that can go on wakes, wherever it stands in the queue. -/
theorem wake_of_one (hwaiting : pool.waiting.Perm (task :: others))
    (htask : Pool.canGoOn (World.host ρ settings) pool.world task = true)
    (hothers : ∀ other ∈ others,
      Pool.canGoOn (World.host ρ settings) pool.world other = false) :
    ∃ waiting, waiting.Perm others ∧
      pool.wake (World.host ρ settings) = { pool with ready := pool.ready ++ [task], waiting } := by
  have hnone : others.filter (Pool.canGoOn (World.host ρ settings) pool.world) = [] :=
    List.filter_eq_nil_iff.2 fun other hmem => by simp [hothers other hmem]
  have hall : others.filter (!Pool.canGoOn (World.host ρ settings) pool.world ·) = others :=
    List.filter_eq_self.2 fun other hmem => by simp [hothers other hmem]
  have hwoken := hwaiting.filter (Pool.canGoOn (World.host ρ settings) pool.world)
  have hleft := hwaiting.filter (!Pool.canGoOn (World.host ρ settings) pool.world ·)
  rw [List.filter_cons_of_pos htask, hnone] at hwoken
  rw [List.filter_cons_of_neg (by simp [htask]), hall] at hleft
  refine ⟨_, hleft, ?_⟩
  simp only [Pool.wake, List.perm_singleton.1 hwoken]

theorem adopt_wake (hspawned : pool.world.spawned = [])
    (hwaiting : ∀ task ∈ pool.waiting,
      Pool.canGoOn (World.host ρ settings) pool.world task = false) :
    (pool.adopt (World.host ρ settings)).wake (World.host ρ settings) = pool := by
  rw [adopt_of_spawned_nil hspawned, wake_of_none hwaiting]

/-- A task ends a round without waiting, and goes on with the next one. -/
theorem turn_of_round {activity : Activity} (hready : pool.ready = task :: ready) {w : World ρ}
    (hround : task.script.Completes (World.attempt task.number) pool.world
      (.round (some activity)) w) (hspawned : w.spawned = [])
    (hwaiting : ∀ other ∈ pool.waiting, Pool.canGoOn (World.host ρ settings) w other = false) :
    pool.turn (World.host ρ settings) =
      { pool with
        world := w
        ready := { task with script := .round <$> activity.round settings } :: ready } := by
  have hadvance : task.script.advance ((World.host ρ settings).attempt task.number) pool.world =
    (.done (.round (some activity)), w) := hround
  rw [Pool.turn_of_resume hready hadvance rfl]
  exact adopt_wake hspawned hwaiting

/-- A task ends for good without waiting. -/
theorem turn_of_end {ending : Ending} (hready : pool.ready = task :: ready) {w : World ρ}
    (hround : task.script.Completes (World.attempt task.number) pool.world ending w)
    (hending : (World.host ρ settings).resume ending = none) (hspawned : w.spawned = [])
    (hwaiting : ∀ other ∈ pool.waiting, Pool.canGoOn (World.host ρ settings) w other = false) :
    pool.turn (World.host ρ settings) =
      { pool with
        world := w
        ready
        finished := (task.number, ending) :: pool.finished } := by
  have hadvance : task.script.advance ((World.host ρ settings).attempt task.number) pool.world =
    (.done ending, w) := hround
  rw [Pool.turn_of_done hready hadvance hending]
  exact adopt_wake hspawned hwaiting

/-- A task waits for an answer, and nothing wakes anybody. -/
theorem turn_of_wait {r : Request} {next : r.Answer → Action Ending}
    (hready : pool.ready = task :: ready) {w : World ρ}
    (hadvance : task.script.advance (World.attempt task.number) pool.world =
      (Script.ask (S := signature) r next, w))
    (hspawned : w.spawned = []) (hattempt : (w.attempt task.number r).1 = none)
    (hwaiting : ∀ other ∈ pool.waiting, Pool.canGoOn (World.host ρ settings) w other = false) :
    pool.turn (World.host ρ settings) =
      { pool with
        world := w
        ready
        waiting :=
          pool.waiting ++ [{ task with script := Script.ask (S := signature) r next }] } := by
  rw [Pool.turn_of_ask hready hadvance]
  refine adopt_wake hspawned fun other hmem => ?_
  rcases List.mem_append.1 hmem with hmem | hmem
  · exact hwaiting other hmem
  · obtain rfl := List.mem_singleton.1 hmem
    show (w.attempt task.number r).1.isSome = false
    rw [hattempt]
    rfl

/-- An activity that is not answered waits where it is. -/
theorem turn_of_activity {activity : Activity} {number : Nat} {r : Request}
    {next : r.Answer → Action Ending} (hready : pool.ready = activity.task settings number :: ready)
    (hround : .round <$> activity.round settings = Script.ask (S := signature) r next)
    (hattempt : pool.world.attempt number r = (none, pool.world))
    (hspawned : pool.world.spawned = [])
    (hwaiting : ∀ other ∈ pool.waiting,
      Pool.canGoOn (World.host ρ settings) pool.world other = false) :
    pool.turn (World.host ρ settings) =
      { pool with ready, waiting := pool.waiting ++ [activity.task settings number] } := by
  have hadvance : (activity.task settings number).script.advance (World.attempt number) pool.world =
      (Script.ask (S := signature) r next, pool.world) := by
    rw [Activity.task, hround]
    exact advance_of_waits hattempt
  have hnone : (pool.world.attempt (activity.task settings number).number r).1 = none := by
    rw [Activity.task, hattempt]
  rw [turn_of_wait hready hadvance hspawned hnone hwaiting, ← hround]
  rfl

end Pools

end Service
end Caretaker
