import Caretaker.Proofs.Rounds
import Caretaker.Proofs.Shipshape

/-!
# A service at rest

A service that started has three tasks in the background.  At rest none of them has anything to do:
health is served, the keep-alive passes wait for the next tick, and the updates wait for images.
Where nothing fails and no container stops on its own, the service is at rest again after whatever
happens, and each role runs the last image that was announced for it.

Main statements:

- `Rests.follow`: what new images lead to.
- `Rests.tick`, `Rests.sleep`: passes leave everything in its place.
- `Rests.live`: what a service at rest comes to, whatever happens.
-/

namespace Caretaker.Service

open Container (Backend Memory)
open Crew (Exchange Performed Supplied Taken Turn Visits isFatal points)

/-! ## Tasks in the background -/

/-- The tasks of a service that started, when none of them has anything to do; the updates are there
as long as there is a publisher. -/
def background (settings : Settings) (next : Nat) (isOpen : Bool) : List (Task signature Ending) :=
  (Activity.keepAliveFrom next 0).task settings 3 :: (Activity.healthFrom 0).task settings 1 ::
    if isOpen then [Activity.updatesFrom.task settings 2] else []

namespace Simulation

/-- A service at rest that started on memory where nothing fails, and that gave the roles their
images. -/
structure Rests (settings : Settings) (before : Memory) (isOpen : Bool)
    (given : Role → List String) (sim : Simulation Memory) : Prop where
  same : sim.settings = settings
  ready : sim.pool.ready = []
  waiting : ∃ next, sim.world.clock < next ∧
    sim.pool.waiting.Perm (background settings next isOpen)
  clear : Clear sim.world
  news : sim.world.shutdown.news? 0 = none
  publishers : sim.world.images.publishers = [isOpen]
  receiver : isOpen = true → sim.world.images.receiver = .streaming
  pending : sim.world.images.pending = []
  supplied : Supplied before given sim.world.crew.roster sim.world.crew.backend

section Rests

variable {settings : Settings} {before : Memory} {isOpen : Bool} {given : Role → List String}
  {sim : Simulation Memory}

/-- Whatever else changes, who serves health and who follows the images waits for news. -/
theorem Rests.isIdle_others (h : sim.Rests settings before isOpen given) {w : World Memory}
    (hshutdown : w.shutdown = sim.world.shutdown) (himages : w.images = sim.world.images) :
    ∀ task ∈ (background settings 0 isOpen).tail,
      Pool.canGoOn (World.host Memory settings) w task = false := by
  have hnews : w.shutdown.news? 0 = none := by
    rw [hshutdown]
    exact h.news
  have hhealth : Pool.canGoOn (World.host Memory settings) w
      ((Activity.healthFrom 0).task settings 1) = false := patient_health hnews w rfl rfl
  cases isOpen with
  | true =>
    have hupdates : Pool.canGoOn (World.host Memory settings) w
        (Activity.updatesFrom.task settings 2) = false := by
      refine (canGoOn_updates 2 ?_).2 ⟨?_, ?_⟩
      · rw [himages]
        exact h.receiver rfl
      · rw [himages]
        exact h.pending
      · rw [himages, h.publishers]
        rfl
    simp [background, hhealth, hupdates]
  | false => simp [background, hhealth]

/-- Before the next tick nobody can go on unless there is news. -/
theorem Rests.isIdle (h : sim.Rests settings before isOpen given) {next : Nat}
    (hwaiting : sim.pool.waiting.Perm (background settings next isOpen)) {w : World Memory}
    (hdue : w.clock < next) (hshutdown : w.shutdown = sim.world.shutdown)
    (himages : w.images = sim.world.images) :
    ∀ task ∈ sim.pool.waiting, Pool.canGoOn (World.host Memory settings) w task = false := by
  intro task hmem
  rcases List.mem_cons.1 (hwaiting.subset hmem) with rfl | hmem
  · refine patient_keepAlive ?_ hdue w rfl rfl
    rw [hshutdown]
    exact h.news
  · exact h.isIdle_others hshutdown himages task hmem

/-! ## Time -/

theorem awaitedTicks_of_perm {next : Nat}
    (hwaiting : sim.pool.waiting.Perm (background settings next isOpen)) :
    sim.awaitedTicks = [next] := by
  have hticks : sim.awaitedTicks.Perm [next] := by
    unfold awaitedTicks
    cases isOpen with
    | true => exact hwaiting.filterMap _
    | false => exact hwaiting.filterMap _
  exact List.perm_singleton.1 hticks

/-- A tick lets the service make a pass, which leaves everything in its place. -/
theorem Rests.tick (h : sim.Rests settings before isOpen given)
    (hinterval : 0 < settings.keepAliveSeconds) {next : Nat}
    (hwaiting : sim.pool.waiting.Perm (background settings next isOpen)) :
    (sim.change fun w => { w with clock := next }).world.clock = next ∧
      (sim.change fun w => { w with clock := next }).Rests settings before isOpen given := by
  obtain rfl := h.same
  obtain ⟨restarts, calls, crew, waiting, hpass, hperformed, hroster, hclear, hperm, hpool⟩ :=
    change_tick h.ready hwaiting
      (fun other hmem crew =>
        h.isIdle_others (w := { sim.world with clock := next, crew }) rfl rfl other hmem)
      h.clear h.news hinterval
  have hanswered : Crew.Answered sim.world.crew.backend calls crew.backend :=
    Crew.Performed.answered hperformed
  have hsupplied : Supplied before given crew.roster crew.backend := by
    rw [hroster]
    exact h.supplied.quiet hanswered (hpass.quiet h.supplied.shipshape hanswered)
  have hworld : (sim.change fun w => { w with clock := next }).world =
      { sim.world with clock := next, crew } := congrArg Pool.world hpool
  refine ⟨congrArg World.clock hworld, rfl, ?_, ⟨next + interval sim.settings, ?_, ?_⟩, ?_, ?_, ?_,
    ?_, ?_, ?_⟩
  · rw [hpool]
    exact h.ready
  · rw [hworld]
    exact lt_add_interval hinterval next
  · rw [hpool]
    exact hperm
  · rw [hworld]
    exact hclear
  · rw [hworld]
    exact h.news
  · rw [hworld]
    exact h.publishers
  · rw [hworld]
    exact h.receiver
  · rw [hworld]
    exact h.pending
  · rw [hworld]
    exact hsupplied

/-- Time passes up to a tick that is still to come. -/
theorem Rests.wait (h : sim.Rests settings before isOpen given) {next deadline : Nat}
    (hwaiting : sim.pool.waiting.Perm (background settings next isOpen)) (hdue : deadline < next) :
    (sim.change fun w => { w with clock := deadline }).Rests settings before isOpen given := by
  obtain rfl := h.same
  let f : World Memory → World Memory := fun w => { w with clock := deadline }
  have hchange : sim.change f = { sim with pool := { sim.pool with world := f sim.world } } :=
    change_of_none h.ready (h.isIdle hwaiting hdue rfl rfl)
  rw [hchange]
  exact ⟨rfl, h.ready, ⟨next, hdue, hwaiting⟩, ⟨h.clear.lock, h.clear.gated, h.clear.spawned⟩,
    h.news, h.publishers, h.receiver, h.pending, h.supplied⟩

/-- Time passes with a pass at every tick. -/
theorem Rests.sleepUntil (h : sim.Rests settings before isOpen given)
    (hinterval : 0 < settings.keepAliveSeconds) {deadline stops : Nat}
    (hpast : sim.world.clock ≤ deadline) (hstops : deadline < sim.world.clock + stops) :
    (sim.sleepUntil deadline stops).Rests settings before isOpen given := by
  induction stops generalizing sim with
  | zero => exact absurd hstops (Nat.not_lt_of_le hpast)
  | succ stops ih =>
    obtain ⟨next, hnext, hwaiting⟩ := h.waiting
    unfold Simulation.sleepUntil
    rw [awaitedTicks_of_perm hwaiting]
    by_cases hdue : next ≤ deadline
    · -- The tick is a later time, so one stop less is enough for the rest.
      obtain ⟨hclock, htick⟩ := h.tick hinterval hwaiting
      rw [List.filter_cons_of_pos (by simpa using hdue), List.filter_nil]
      show (Simulation.sleepUntil deadline stops
        (sim.change fun w => { w with clock := next })).Rests settings before isOpen given
      refine ih htick ?_ ?_
      · rw [hclock]
        exact hdue
      · rw [hclock]
        omega
    · rw [List.filter_cons_of_neg (by simpa using hdue), List.filter_nil]
      exact h.wait hwaiting (Nat.lt_of_not_le hdue)

theorem Rests.sleep (h : sim.Rests settings before isOpen given)
    (hinterval : 0 < settings.keepAliveSeconds) (milliseconds : Nat) :
    (sim.sleep milliseconds).Rests settings before isOpen given :=
  h.sleepUntil hinterval (Nat.le_add_right _ _) (by omega)

/-! ## Images -/

/-- The updates give the roles the images that come, and end when the publisher goes away. -/
theorem Rests.follow (h : sim.Rests settings before true given) {f : World Memory → World Memory}
    {pending : List ImageRefs} (hworld : f sim.world = { sim.world with
      images := { sim.world.images with pending, publishers := [isOpen] } }) :
    (sim.change f).Rests settings before isOpen
      fun role => given role ++ pending.map (·.of role) := by
  obtain rfl := h.same
  obtain ⟨next, hnext, hwaiting⟩ := h.waiting
  let others := [(Activity.keepAliveFrom next 0).task sim.settings 3,
    (Activity.healthFrom 0).task sim.settings 1]
  have hqueue : sim.pool.waiting.Perm (Activity.updatesFrom.task sim.settings 2 :: others) :=
    hwaiting.trans (List.perm_append_singleton _ others)
  have hothers : ∀ task ∈ others, Patient sim.settings (f sim.world) task := by
    rw [hworld]
    simp only [others, List.forall_mem_cons]
    exact ⟨patient_keepAlive h.news hnext, patient_health h.news, List.forall_mem_nil _⟩
  have hclear : Clear (f sim.world) := by
    rw [hworld]
    exact ⟨h.clear.lock, h.clear.gated, h.clear.spawned⟩
  have hreceiver : (f sim.world).images.receiver = .streaming := by
    rw [hworld]
    exact h.receiver rfl
  obtain ⟨turns, calls, waiting, hperm, hvisits, hmoved, hcomes⟩ :=
    change_updates h.ready hqueue hothers hclear hreceiver
  obtain ⟨htaken, hperformed, hclear'⟩ := hmoved
  rw [hworld] at hvisits htaken hperformed hcomes
  obtain ⟨hok, hsupplied⟩ := h.supplied.visited hvisits htaken (Crew.Performed.answered hperformed)
  have hsettings : (sim.change f).settings = sim.settings := rfl
  generalize sim.change f = after at hsettings hcomes hclear' hsupplied ⊢
  obtain ⟨settings, pool⟩ := after
  obtain rfl : settings = sim.settings := hsettings
  change ComesTo _ [] turns _ pool at hcomes
  cases hcomes with
  | waits hturns hthere hwaiting' =>
    obtain rfl : isOpen = true := by simpa using hthere
    have hall : (Activity.updatesFrom.task sim.settings 2 :: others).Perm
        (background sim.settings next true) := (List.perm_append_singleton _ others).symm
    exact ⟨rfl, rfl, ⟨next, hnext, hwaiting'.trans ((hperm.cons _).trans hall)⟩, hclear', h.news,
      rfl, h.receiver, rfl, hsupplied⟩
  | ends hturns hgone =>
    obtain rfl : isOpen = false := by simpa using hgone
    exact ⟨rfl, rfl, ⟨next, hnext, hperm⟩, hclear', h.news, rfl, nofun, rfl, hsupplied⟩
  | fails hfails => exact absurd hfails (not_fails_of_ok hok)

/-- Nothing goes on where nothing changed. -/
theorem Rests.change_same (h : sim.Rests settings before isOpen given)
    {f : World Memory → World Memory} (hworld : f sim.world = sim.world) : sim.change f = sim := by
  obtain rfl := h.same
  obtain ⟨next, hnext, hwaiting⟩ := h.waiting
  have hidle : ∀ task ∈ sim.pool.waiting,
      Pool.canGoOn (World.host Memory sim.settings) (f sim.world) task = false := by
    rw [hworld]
    exact h.isIdle hwaiting hnext rfl rfl
  rw [change_of_none h.ready hidle, hworld]
  rfl

/-! ## Whatever happens -/

/-- A service at rest is at rest again after one more happening. -/
theorem Rests.meet (h : sim.Rests settings before isOpen given)
    (hinterval : 0 < settings.keepAliveSeconds) {happening : Happening Memory}
    (halone : ∀ f, happening ≠ .changes f) :
    (sim.meet happening).Rests settings before (isOpen && happening.keepsPublisher)
      fun role => given role ++ (announced isOpen [happening]).map (·.of role) := by
  have hnothing : ∀ images : List ImageRefs, images = [] →
      (fun role : Role => given role ++ images.map (·.of role)) = given := by
    rintro _ rfl
    simp
  cases happening with
  | publishes refs =>
    let f : World Memory → World Memory := fun w =>
      { w with images := (publish.announce refs sim.world.images).2 }
    have himages := announce_images refs sim.world.images
    have hmeet : sim.meet (.publishes refs) = sim.change f := rfl
    rw [hmeet, Happening.and_keepsPublisher rfl]
    cases isOpen with
    | true =>
      have hthere : sim.world.images.hasPublisher 0 = true ∧ sim.world.images.receiver ≠ .gone := by
        rw [ImageStore.hasPublisher, h.publishers, h.receiver rfl]
        exact ⟨rfl, fun hreceiver => by cases hreceiver⟩
      have hannounced : announced true [Happening.publishes (ρ := Memory) refs] = refs := by
        simp [announced]
      have hworld : f sim.world = { sim.world with
          images := { sim.world.images with pending := refs, publishers := [true] } } := by
        show { sim.world with images := (publish.announce refs sim.world.images).2 } = _
        rw [himages, if_pos hthere, h.pending, List.nil_append, ← h.publishers]
      rw [hannounced]
      exact h.follow hworld
    | false =>
      have hgone : ¬ (sim.world.images.hasPublisher 0 = true ∧
          sim.world.images.receiver ≠ .gone) := by
        rw [ImageStore.hasPublisher, h.publishers]
        simp
      have hworld : f sim.world = sim.world := by
        show { sim.world with images := (publish.announce refs sim.world.images).2 } = _
        rw [himages, if_neg hgone]
      rw [hnothing _ (by simp [announced]), h.change_same hworld]
      exact h
  | closes =>
    let f : World Memory → World Memory := fun w => { w with images := w.images.dropPublisher 0 }
    have hmeet : sim.meet .closes = sim.change f := rfl
    have hdropped : sim.world.images.dropPublisher 0 =
        { sim.world.images with publishers := [false] } := by
      rw [ImageStore.dropPublisher, h.publishers]
      rfl
    have hworld : f sim.world = { sim.world with
        images := { sim.world.images with publishers := [false] } } := by
      show { sim.world with images := sim.world.images.dropPublisher 0 } = _
      rw [hdropped]
    rw [hmeet, Happening.keepsPublisher, Bool.and_false, hnothing _ (by simp [announced])]
    cases isOpen with
    | true =>
      have hclosed := h.follow hworld
      rw [hnothing _ h.pending] at hclosed
      exact hclosed
    | false =>
      rw [← h.publishers] at hworld
      rw [h.change_same hworld]
      exact h
  | changes f => exact absurd rfl (halone f)
  | elapses milliseconds =>
    rw [Happening.and_keepsPublisher rfl, hnothing _ (by simp [announced])]
    exact h.sleep hinterval milliseconds

/-- Each role is given what was announced for it, whatever happens in between. -/
theorem Rests.live (h : sim.Rests settings before isOpen given)
    (hinterval : 0 < settings.keepAliveSeconds) {happenings : List (Happening Memory)}
    (halone : ∀ f, .changes f ∉ happenings) :
    ∃ isOpen', (sim.live happenings).Rests settings before isOpen'
      fun role => given role ++ (announced isOpen happenings).map (·.of role) := by
  induction happenings generalizing sim isOpen given with
  | nil =>
    refine ⟨isOpen, ?_⟩
    simp only [announced, List.map_nil, List.append_nil]
    exact h
  | cons happening happenings ih =>
    have hmeet := h.meet hinterval fun f hsame => halone f (hsame ▸ List.mem_cons_self)
    obtain ⟨isOpen', hlive⟩ := ih hmeet fun f hmem => halone f (List.mem_cons_of_mem _ hmem)
    refine ⟨isOpen', ?_⟩
    simp only [announced_cons isOpen happening happenings, List.map_append, ← List.append_assoc]
    exact hlive

end Rests

end Simulation
end Caretaker.Service
