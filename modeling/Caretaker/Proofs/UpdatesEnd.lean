import Caretaker.Proofs.Updates

/-!
# How the updates end

While the updates follow the image stream, images are announced, the publisher goes away, the
backend changes on its own and time passes.  The updates take the items in order.  They end with the
stream, when all its items were taken, or at the first replace that fails fatally.  That failure is
told once, and nothing is done after it.

Main statements:

- `Simulation.change_updates`: what the updates do when the world changes around them.
- `Followed.meet`: what they have done after one more happening.
- `Simulation.updates_end_once`: how they end, whatever happens.
-/

namespace Caretaker.Service

open Container (Backend)
open Crew (Exchange Performed Taken Turn Visits isFatal points)

/-! ## What happens around a service -/

/-- Something that happens to a service from outside. -/
inductive Happening (ρ : Type) where
  /-- Images are announced one after the other before anything goes on. -/
  | publishes (refs : List ImageRefs)
  /-- The publisher goes away. -/
  | closes
  /-- The backend changes on its own. -/
  | changes (f : ρ → ρ)
  /-- Time passes. -/
  | elapses (milliseconds : Nat)

/-- Whether a publisher that was there stays. -/
def Happening.keepsPublisher {ρ : Type} : Happening ρ → Bool
  | closes => false
  | _ => true

theorem Happening.and_keepsPublisher {ρ : Type} {happening : Happening ρ}
    (h : happening.keepsPublisher = true) (hasPublisher : Bool) :
    (hasPublisher && happening.keepsPublisher) = hasPublisher := by
  rw [h, Bool.and_true]

/-- The images that are announced while there is a publisher, if there is one at first. -/
def announced {ρ : Type} (hasPublisher : Bool) : List (Happening ρ) → List ImageRefs
  | [] => []
  | happening :: happenings =>
    match happening with
    | .publishes refs => (if hasPublisher then refs else []) ++ announced hasPublisher happenings
    | _ => announced (hasPublisher && happening.keepsPublisher) happenings

theorem announced_cons {ρ : Type} (hasPublisher : Bool) (happening : Happening ρ)
    (happenings : List (Happening ρ)) :
    announced hasPublisher (happening :: happenings) =
      announced hasPublisher [happening] ++
        announced (hasPublisher && happening.keepsPublisher) happenings := by
  cases happening <;> simp [announced, Happening.keepsPublisher]

/-- What a backend comes to if nobody calls it. -/
def drift {ρ : Type} (happenings : List (Happening ρ)) (b : ρ) : ρ :=
  happenings.foldl (fun b happening =>
    match happening with
    | .changes f => f b
    | _ => b) b

namespace Simulation

variable {ρ : Type} [Backend ρ]

/-- A simulation after one happening. -/
def meet (sim : Simulation ρ) : Happening ρ → Simulation ρ
  | .publishes refs => (sim.publish refs).2
  | .closes => sim.dropPublisher
  | .changes f => sim.changeBackend f
  | .elapses milliseconds => sim.sleep milliseconds

/-- A simulation after happenings, the first one first. -/
def live (happenings : List (Happening ρ)) (sim : Simulation ρ) : Simulation ρ :=
  happenings.foldl meet sim

/-- What is announced is in the stream, as long as there is somebody to announce it and something to
receive it. -/
theorem announce_images (refs : List ImageRefs) (images : ImageStore) :
    (publish.announce refs images).2 =
      if images.hasPublisher 0 = true ∧ images.receiver ≠ .gone then
        { images with pending := images.pending ++ refs }
      else images := by
  induction refs generalizing images with
  | nil => simp [publish.announce]
  | cons first refs ih =>
    show (publish.announce refs (images.publish? 0 first).2).2 = _
    rw [ih]
    by_cases hpublisher : images.hasPublisher 0 = true
    · by_cases hgone : images.receiver = .gone
      · simp [ImageStore.publish?, hpublisher, hgone]
      · have hpublished : (images.publish? 0 first).2 =
            { images with pending := images.pending ++ [first] } := by
          simp [ImageStore.publish?, hpublisher, hgone]
        have hthere : ImageStore.hasPublisher 0
            { images with pending := images.pending ++ [first] } = true := hpublisher
        rw [hpublished, if_pos ⟨hthere, hgone⟩, if_pos ⟨hpublisher, hgone⟩]
        simp
    · simp [ImageStore.publish?, hpublisher]

/-- Time that passes while nobody waits for a tick. -/
theorem sleep_of_no_tick {sim : Simulation ρ} (hticks : sim.awaitedTicks = [])
    (milliseconds : Nat) :
    sim.sleep milliseconds =
      sim.change fun w => { w with clock := sim.world.clock + milliseconds } := by
  unfold sleep sleepUntil
  rw [hticks]
  rfl

/-! ## Where nothing goes on -/

section Idle

variable {sim : Simulation ρ}

/-- Nothing goes on where nobody can go on. -/
theorem change_of_none {f : World ρ → World ρ} (hready : sim.pool.ready = [])
    (hwaiting : ∀ task ∈ sim.pool.waiting,
      Pool.canGoOn (World.host ρ sim.settings) (f sim.world) task = false) :
    sim.change f = { sim with pool := { sim.pool with world := f sim.world } } := by
  let pool : Pool signature (World ρ) Ending := { sim.pool with world := f sim.world }
  have hwake : pool.wake (World.host ρ sim.settings) = pool := wake_of_none hwaiting
  have hnone : pool.ready = [] := hready
  have hsettle : (pool.wake (World.host ρ sim.settings)).settle (World.host ρ sim.settings)
      (turns (pool.wake (World.host ρ sim.settings))) = pool := by
    rw [hwake, Pool.settle_of_ready_nil hnone]
  exact congrArg (Simulation.mk sim.settings) hsettle

theorem change_of_idle (hready : sim.pool.ready = []) (hwaiting : sim.pool.waiting = [])
    (f : World ρ → World ρ) :
    sim.change f = { sim with pool := { sim.pool with world := f sim.world } } :=
  change_of_none hready (by simp [hwaiting])

/-- Where everything has ended, a happening makes no call and tells nothing. -/
theorem meet_of_idle (hready : sim.pool.ready = []) (hwaiting : sim.pool.waiting = [])
    (happening : Happening ρ) :
    (sim.meet happening).pool.ready = [] ∧ (sim.meet happening).pool.waiting = [] ∧
      (sim.meet happening).world.fatal = sim.world.fatal ∧
      (sim.meet happening).world.crew =
        { sim.world.crew with backend := drift [happening] sim.world.crew.backend } := by
  have hchange : ∀ f : World ρ → World ρ, (f sim.world).fatal = sim.world.fatal →
      (f sim.world).crew = { sim.world.crew with
        backend := drift [happening] sim.world.crew.backend } →
      (sim.change f).pool.ready = [] ∧ (sim.change f).pool.waiting = [] ∧
        (sim.change f).world.fatal = sim.world.fatal ∧
        (sim.change f).world.crew =
          { sim.world.crew with backend := drift [happening] sim.world.crew.backend } := by
    intro f hfatal hcrew
    rw [change_of_idle hready hwaiting f]
    exact ⟨hready, hwaiting, hfatal, hcrew⟩
  cases happening with
  | publishes refs =>
    exact hchange (fun w => { w with images := (publish.announce refs sim.world.images).2 }) rfl rfl
  | closes => exact hchange (fun w => { w with images := w.images.dropPublisher 0 }) rfl rfl
  | changes f =>
    exact hchange (fun w => { w with crew := { w.crew with backend := f w.crew.backend } }) rfl rfl
  | elapses milliseconds =>
    have hticks : sim.awaitedTicks = [] := by
      unfold awaitedTicks
      rw [hwaiting]
      rfl
    rw [meet, sleep_of_no_tick hticks]
    exact hchange (fun w => { w with clock := sim.world.clock + milliseconds }) rfl rfl

theorem live_of_idle (hready : sim.pool.ready = []) (hwaiting : sim.pool.waiting = [])
    (happenings : List (Happening ρ)) :
    (sim.live happenings).isIdle = true ∧ (sim.live happenings).world.fatal = sim.world.fatal ∧
      (sim.live happenings).world.crew =
        { sim.world.crew with backend := drift happenings sim.world.crew.backend } := by
  induction happenings generalizing sim with
  | nil => exact ⟨by simp [live, isIdle, hready, hwaiting], rfl, rfl⟩
  | cons happening happenings ih =>
    obtain ⟨hready', hwaiting', hfatal, hcrew⟩ := meet_of_idle hready hwaiting happening
    obtain ⟨hidle, hfatals, hcrews⟩ := ih hready' hwaiting'
    refine ⟨hidle, hfatals.trans hfatal, hcrews.trans ?_⟩
    rw [hcrew]
    rfl

end Idle

/-! ## Changes around the updates -/

section Changes

variable {sim : Simulation ρ}

/-- The updates wait where the stream holds nothing and has not ended. -/
theorem canGoOn_updates {settings : Settings} {w : World ρ} (number : Nat)
    (hreceiver : w.images.receiver = .streaming) :
    Pool.canGoOn (World.host ρ settings) w (Activity.updatesFrom.task settings number) = false ↔
      w.images.pending = [] ∧ w.images.publishers.any id = true := by
  show (w.attempt number .nextImages).1.isSome = false ↔ _
  simp only [World.attempt, ImageStore.poll?, hreceiver]
  cases w.images.pending with
  | nil => cases w.images.publishers.any id <;> simp
  | cons refs items => simp

/-- The world changes while the updates wait, beside tasks that wait for time to pass or the
shutdown.  The updates take what the stream holds then. -/
theorem change_updates {f : World ρ → World ρ} {number : Nat}
    {others : List (Task signature Ending)} (hready : sim.pool.ready = [])
    (hwaiting : sim.pool.waiting.Perm (Activity.updatesFrom.task sim.settings number :: others))
    (hothers : ∀ task ∈ others, Patient sim.settings (f sim.world) task)
    (hclear : Clear (f sim.world)) (hreceiver : (f sim.world).images.receiver = .streaming) :
    ∃ turns calls waiting, waiting.Perm others ∧
      Visits (points (f sim.world).images.pending) turns ∧
      Moved sim.settings turns calls (f sim.world) (sim.change f).world ∧
      ComesTo (Activity.updatesFrom.task sim.settings number) [] turns
        { sim.pool with world := f sim.world, waiting } (sim.change f).pool := by
  let pool : Pool signature (World ρ) Ending := { sim.pool with world := f sim.world }
  have hqueue : pool.waiting.Perm (Activity.updatesFrom.task sim.settings number :: others) :=
    hwaiting
  have hidle : ∀ task ∈ others,
      Pool.canGoOn (World.host ρ sim.settings) pool.world task = false :=
    fun task hmem => hothers task hmem _ rfl rfl
  have hchange : (sim.change f).pool = (pool.wake (World.host ρ sim.settings)).settle
      (World.host ρ sim.settings) (turns (pool.wake (World.host ρ sim.settings))) := rfl
  cases hcanGoOn : Pool.canGoOn (World.host ρ sim.settings) pool.world
      (Activity.updatesFrom.task sim.settings number) with
  | true =>
    obtain ⟨waiting, hperm, hwake⟩ := wake_of_one hqueue hcanGoOn hidle
    let woken : Pool signature (World ρ) Ending := { pool with
      ready := pool.ready ++ [Activity.updatesFrom.task sim.settings number]
      waiting }
    have hwoken : woken.ready = Activity.updatesFrom.task sim.settings number :: [] := by
      show sim.pool.ready ++ _ = _
      rw [hready]
      rfl
    obtain ⟨turns, calls, pool', needed, hneeded, hsettle, hvisits, hmoved, hcomes⟩ :=
      settle_updates hwoken (fun task hmem => hothers task (hperm.subset hmem)) hclear hreceiver rfl
    obtain ⟨fuel, hfuel⟩ : ∃ fuel, Simulation.turns woken = needed + fuel :=
      Nat.exists_eq_add_of_le (Nat.le_trans hneeded (Nat.le_of_lt (length_lt_turns woken)))
    have hnone : pool'.ready = [] := by cases hcomes <;> rfl
    have hpool : (sim.change f).pool = pool' := by
      rw [hchange, hwake, hfuel, hsettle, Pool.settle_of_ready_nil hnone]
    refine ⟨turns, calls, waiting, hperm, hvisits, ?_, ?_⟩
    · show Moved sim.settings turns calls (f sim.world) (sim.change f).pool.world
      rw [hpool]
      exact hmoved
    · rw [hpool]
      exact hcomes.of_ready
  | false =>
    -- The updates wait on.
    obtain ⟨hpending, hpublishers⟩ := (canGoOn_updates number hreceiver).1 hcanGoOn
    have hwake : pool.wake (World.host ρ sim.settings) = pool := by
      refine wake_of_none fun task hmem => ?_
      rcases List.mem_cons.1 (hwaiting.subset hmem) with rfl | hmem
      · exact hcanGoOn
      · exact hidle task hmem
    have hnone : pool.ready = [] := hready
    have hpool : (sim.change f).pool = { pool with ready := [] } := by
      rw [hchange, hwake, Pool.settle_of_ready_nil hnone, ← hnone]
    refine ⟨[], [], others, .refl _, ?_, ?_, ?_⟩
    · rw [hpending]
      exact .nil
    · show Moved sim.settings [] [] (f sim.world) (sim.change f).pool.world
      rw [hpool]
      exact .refl hclear
    · have himages : { (f sim.world).images with pending := [] } = (f sim.world).images := by
        rw [← hpending]
      have hcomes : ComesTo (Activity.updatesFrom.task sim.settings number) [] []
          { sim.pool with world := f sim.world, waiting := others }
          { sim.pool with
            ready := []
            waiting := sim.pool.waiting
            world := { f sim.world with
              images := { (f sim.world).images with pending := [] } } } :=
        .waits (List.forall_mem_nil _) hpublishers hwaiting
      rw [himages] at hcomes
      rw [hpool]
      exact hcomes

end Changes

/-! ## What the updates have done -/

/-- Where the updates stand after turns: they wait at the end of what was announced, they ended with
the stream, or they ended with a fatal failure. -/
inductive Standing (before : World ρ) (turns : List Turn) (sim : Simulation ρ) : Prop where
  | follows (number : Nat) (hturns : ∀ turn ∈ turns, isFatal turn.result = false)
      (hwaiting : sim.pool.waiting = [Activity.updatesFrom.task sim.settings number])
      (hreceiver : sim.world.images.receiver = .streaming)
      (hpending : sim.world.images.pending = [])
      (hpublishers : sim.world.images.publishers.any id = true)
      (hfatal : sim.world.fatal = before.fatal)
  | ended (hturns : ∀ turn ∈ turns, isFatal turn.result = false) (hwaiting : sim.pool.waiting = [])
      (hreceiver : sim.world.images.receiver = .gone)
      (hpublishers : sim.world.images.publishers.any id = false)
      (hfatal : sim.world.fatal = before.fatal)
  | failed (e : ReplaceError) (hfails : Fails turns e) (hwaiting : sim.pool.waiting = [])
      (hreceiver : sim.world.images.receiver = .gone)
      (hfatal : sim.world.fatal = .replace e :: before.fatal)

/-- The updates took turns at the items of a stream since a world was as `before`. -/
structure Followed (settings : Settings) (outside : ρ → ρ → Prop) (before : World ρ)
    (items : List ImageRefs) (turns : List Turn) (sim : Simulation ρ) : Prop where
  same : sim.settings = settings
  ready : sim.pool.ready = []
  clear : Clear sim.world
  visits : Visits (points items) turns
  account : ∃ calls,
    Taken settings turns before.crew.roster calls sim.world.crew.roster ∧
      Performed outside before.crew.backend calls sim.world.crew.backend
  standing : Standing before turns sim

section Followed

variable {settings : Settings} {outside : ρ → ρ → Prop} {before : World ρ}
  {items : List ImageRefs} {turns : List Turn} {sim : Simulation ρ}

omit [Backend ρ] in
/-- More turns of the updates bring them to where they stand after all turns. -/
theorem standing_of_comesTo {number : Nat}
    {pool : Pool signature (World ρ) Ending} {turns' : List Turn}
    (hsettings : sim.settings = settings)
    (h : ComesTo (Activity.updatesFrom.task settings number) [] turns' pool sim.pool)
    (hwaiting : pool.waiting = []) (hreceiver : pool.world.images.receiver = .streaming)
    (hfatal : pool.world.fatal = before.fatal)
    (hturns : ∀ turn ∈ turns, isFatal turn.result = false) :
    sim.pool.ready = [] ∧ Standing before (turns ++ turns') sim := by
  obtain ⟨settings', pool'⟩ := sim
  obtain rfl : settings' = settings := hsettings
  have hcomes : ComesTo (Activity.updatesFrom.task settings' number) [] turns' pool pool' := h
  cases hcomes with
  | waits hturns' hpublishers hperm =>
    rw [hwaiting] at hperm
    exact ⟨rfl, .follows number (List.forall_mem_append.2 ⟨hturns, hturns'⟩)
      (List.perm_singleton.1 hperm) hreceiver rfl hpublishers hfatal⟩
  | ends hturns' hpublishers =>
    exact ⟨rfl, .ended (List.forall_mem_append.2 ⟨hturns, hturns'⟩) hwaiting rfl hpublishers hfatal⟩
  | @fails crew e hfails =>
    obtain ⟨turn, hmem, hturn⟩ := hfails
    refine ⟨rfl, .failed e ⟨turn, List.mem_append_right _ hmem, hturn⟩ hwaiting rfl ?_⟩
    exact congrArg (ServiceError.replace e :: ·) hfatal

omit [Backend ρ] in
theorem publishers_of_comesTo {task : Task signature Ending} {ready : List (Task signature Ending)}
    {pool pool' : Pool signature (World ρ) Ending} (h : ComesTo task ready turns pool pool') :
    pool'.world.images.publishers = pool.world.images.publishers := by
  cases h <;> rfl

theorem points_append (items items' : List ImageRefs) :
    points (items ++ items') = points items ++ points items' := List.flatMap_append

/-- What the updates have done after the images, the backend or the time changed around them. -/
theorem Followed.change (h : sim.Followed settings outside before items turns)
    {f : World ρ → World ρ} {images : ImageStore} {backend : ρ} {clock : Nat}
    {news : List ImageRefs} (hworld : f sim.world =
      { sim.world with images, clock, crew := { sim.world.crew with backend } })
    (hbackend : backend = sim.world.crew.backend ∨ outside sim.world.crew.backend backend)
    (hreceiver : images.receiver = sim.world.images.receiver)
    (hgone : sim.world.images.publishers.any id = false →
      images.publishers.any id = false ∧ news = [])
    (hpending : sim.world.images.receiver = .streaming →
      images.pending = sim.world.images.pending ++ news) :
    (sim.change f).world.images.publishers = images.publishers ∧
      ∃ turns', (sim.change f).Followed settings outside before (items ++ news) turns' := by
  obtain ⟨calls, htaken, hperformed⟩ := h.account
  have hmoved : Performed outside before.crew.backend calls backend := by
    rcases hbackend with rfl | hmoves
    · exact hperformed
    · exact hperformed.moved hmoves
  cases h.standing with
  | follows number hturns hwaiting hstreaming hempty hpublishers hnofatal =>
    have hperm : sim.pool.waiting.Perm (Activity.updatesFrom.task sim.settings number :: []) := by
      rw [hwaiting]
    have hclear : Clear (f sim.world) := by
      rw [hworld]
      exact ⟨h.clear.lock, h.clear.gated, h.clear.spawned⟩
    have hstreaming' : (f sim.world).images.receiver = .streaming := by
      rw [hworld]
      exact hreceiver.trans hstreaming
    obtain ⟨turns', calls', waiting, hwaiting', hvisits, hmoved', hcomes⟩ :=
      change_updates h.ready hperm (List.forall_mem_nil _) hclear hstreaming'
    obtain ⟨hready, hstanding⟩ : (sim.change f).pool.ready = [] ∧
        Standing before (turns ++ turns') (sim.change f) := by
      refine standing_of_comesTo rfl hcomes (List.perm_nil.1 hwaiting') hstreaming' ?_ hturns
      rw [hworld]
      exact hnofatal
    have hpublishers' := publishers_of_comesTo hcomes
    have htaken' := hmoved'.taken
    have hperformed' := hmoved'.performed
    rw [hworld] at hvisits hpublishers' htaken' hperformed'
    rw [h.same] at htaken'
    refine ⟨hpublishers', turns ++ turns', h.same, hready, hmoved'.clear, ?_,
      ⟨calls ++ calls', ?_, ?_⟩, hstanding⟩
    · have hnews : images.pending = news := by
        rw [hpending hstreaming, hempty]
        rfl
      rw [points_append, ← hnews]
      exact h.visits.append hturns hvisits
    · exact htaken.append htaken'
    · exact hmoved.trans (hperformed'.mono fun _ _ hnever => hnever.elim)
  | ended hturns hwaiting hdropped hpublishers hnofatal =>
    obtain ⟨hclosed, rfl⟩ := hgone hpublishers
    rw [List.append_nil, change_of_idle h.ready hwaiting f, hworld]
    exact ⟨rfl, turns, h.same, h.ready, ⟨h.clear.lock, h.clear.gated, h.clear.spawned⟩, h.visits,
      ⟨calls, htaken, hmoved⟩,
      .ended hturns hwaiting (hreceiver.trans hdropped) hclosed hnofatal⟩
  | failed e hfails hwaiting hdropped hfailed =>
    rw [change_of_idle h.ready hwaiting f, hworld]
    refine ⟨rfl, turns, h.same, h.ready, ⟨h.clear.lock, h.clear.gated, h.clear.spawned⟩, ?_,
      ⟨calls, htaken, hmoved⟩,
      .failed e hfails hwaiting (hreceiver.trans hdropped) hfailed⟩
    obtain ⟨turn, hmem, herror, hworst⟩ := hfails
    rw [points_append]
    exact h.visits.append_of_fatal ⟨turn, hmem, by rw [herror]; exact hworst⟩

/-- The updates wait for no tick. -/
theorem Followed.awaitedTicks (h : sim.Followed settings outside before items turns) :
    sim.awaitedTicks = [] := by
  unfold Simulation.awaitedTicks
  cases h.standing with
  | follows number hturns hwaiting =>
    rw [hwaiting]
    rfl
  | ended hturns hwaiting =>
    rw [hwaiting]
    rfl
  | failed e hfails hwaiting =>
    rw [hwaiting]
    rfl

/-- A publisher that was dropped is gone, and no other comes. -/
theorem hasPublisher_dropPublisher (images : ImageStore) :
    (images.dropPublisher 0).hasPublisher 0 = false := by
  unfold ImageStore.hasPublisher ImageStore.dropPublisher
  cases images.publishers <;> rfl

theorem none_dropPublisher {images : ImageStore} (h : images.publishers.any id = false) :
    (images.dropPublisher 0).publishers.any id = false := by
  unfold ImageStore.dropPublisher
  cases hpublishers : images.publishers with
  | nil => rfl
  | cons first others =>
    rw [hpublishers] at h
    simp only [List.any_cons, id_eq, Bool.or_eq_false_iff] at h
    simp [h.2]

theorem hasPublisher_of_none {images : ImageStore} (h : images.publishers.any id = false) :
    images.hasPublisher 0 = false := by
  unfold ImageStore.hasPublisher
  cases hpublishers : images.publishers with
  | nil => rfl
  | cons first others =>
    rw [hpublishers] at h
    simp only [List.any_cons, id_eq, Bool.or_eq_false_iff] at h
    simp [h.1]

/-- What the updates have done after one more happening. -/
theorem Followed.meet (h : sim.Followed settings outside before items turns)
    (happening : Happening ρ) (houtside : ∀ f, happening = .changes f → ∀ b, outside b (f b)) :
    (sim.meet happening).world.images.hasPublisher 0 =
        (sim.world.images.hasPublisher 0 && happening.keepsPublisher) ∧
      ∃ turns', (sim.meet happening).Followed settings outside before
        (items ++ announced (sim.world.images.hasPublisher 0) [happening]) turns' := by
  have hthere : ∀ {images images' : ImageStore}, images'.publishers = images.publishers →
      images'.hasPublisher 0 = images.hasPublisher 0 := by
    intro images images' hsame
    rw [ImageStore.hasPublisher, hsame, ImageStore.hasPublisher]
  cases happening with
  | publishes refs =>
    let images := (publish.announce refs sim.world.images).2
    let f : World ρ → World ρ := fun w => { w with images }
    have hworld : f sim.world =
        { sim.world with
          images
          clock := sim.world.clock
          crew := { sim.world.crew with backend := sim.world.crew.backend } } := rfl
    have himages := announce_images refs sim.world.images
    have hpublishers : images.publishers = sim.world.images.publishers := by
      show (publish.announce refs sim.world.images).2.publishers = _
      rw [himages]
      split <;> rfl
    have hchange : (sim.change f).world.images.publishers = images.publishers ∧
        ∃ turns', (sim.change f).Followed settings outside before
          (items ++ announced (sim.world.images.hasPublisher 0)
            [Happening.publishes (ρ := ρ) refs]) turns' := by
      refine h.change hworld (.inl rfl) ?_ (fun hnone => ⟨?_, ?_⟩) fun hstreaming => ?_
      · show (publish.announce refs sim.world.images).2.receiver = _
        rw [himages]
        split <;> rfl
      · rw [hpublishers]
        exact hnone
      · rw [hasPublisher_of_none hnone]
        rfl
      · show (publish.announce refs sim.world.images).2.pending = _
        rw [himages, hstreaming]
        cases sim.world.images.hasPublisher 0 <;> simp [announced]
    rw [Happening.and_keepsPublisher rfl]
    exact ⟨hthere (hchange.1.trans hpublishers), hchange.2⟩
  | closes =>
    let f : World ρ → World ρ := fun w => { w with images := w.images.dropPublisher 0 }
    have hworld : f sim.world =
        { sim.world with
          images := sim.world.images.dropPublisher 0
          clock := sim.world.clock
          crew := { sim.world.crew with backend := sim.world.crew.backend } } := rfl
    have hchange := h.change hworld (.inl rfl) rfl
      (fun hnone => ⟨none_dropPublisher hnone, rfl⟩) fun _ => (List.append_nil _).symm
    rw [Happening.keepsPublisher, Bool.and_false]
    exact ⟨(hthere hchange.1).trans (hasPublisher_dropPublisher _), hchange.2⟩
  | changes g =>
    let f : World ρ → World ρ := fun w =>
      { w with crew := { w.crew with backend := g w.crew.backend } }
    have hworld : f sim.world =
        { sim.world with
          images := sim.world.images
          clock := sim.world.clock
          crew := { sim.world.crew with backend := g sim.world.crew.backend } } := rfl
    have hchange := h.change hworld (.inr (houtside g rfl _)) rfl (fun hnone => ⟨hnone, rfl⟩)
      fun _ => (List.append_nil _).symm
    rw [Happening.and_keepsPublisher rfl]
    exact ⟨hthere hchange.1, hchange.2⟩
  | elapses milliseconds =>
    let f : World ρ → World ρ := fun w => { w with clock := sim.world.clock + milliseconds }
    have hworld : f sim.world =
        { sim.world with
          images := sim.world.images
          clock := sim.world.clock + milliseconds
          crew := { sim.world.crew with backend := sim.world.crew.backend } } := rfl
    have hchange := h.change hworld (.inl rfl) rfl (fun hnone => ⟨hnone, rfl⟩)
      fun _ => (List.append_nil _).symm
    rw [Happening.and_keepsPublisher rfl, Simulation.meet, sleep_of_no_tick h.awaitedTicks]
    exact ⟨hthere hchange.1, hchange.2⟩

theorem Followed.live (h : sim.Followed settings outside before items turns)
    {happenings : List (Happening ρ)}
    (houtside : ∀ f, .changes f ∈ happenings → ∀ b, outside b (f b)) :
    ∃ turns', (sim.live happenings).Followed settings outside before
      (items ++ announced (sim.world.images.hasPublisher 0) happenings) turns' := by
  induction happenings generalizing sim items turns with
  | nil =>
    rw [announced, List.append_nil]
    exact ⟨turns, h⟩
  | cons happening happenings ih =>
    obtain ⟨hpublisher, turns', hmeet⟩ := h.meet happening fun f hf b =>
      houtside f (hf ▸ List.mem_cons_self) b
    have hlive := ih hmeet fun f hmem => houtside f (List.mem_cons_of_mem _ hmem)
    rw [hpublisher, List.append_assoc, ← announced_cons] at hlive
    exact hlive

/-- The updates that begin have turns at what the stream holds. -/
theorem followed_begin (outside : ρ → ρ → Prop) {items : List ImageRefs} (h : sim.Holds items) :
    (sim.begin .updates).world.images.hasPublisher 0 = sim.world.images.hasPublisher 0 ∧
      ∃ turns, (sim.begin .updates).Followed sim.settings outside sim.world items turns := by
  obtain ⟨turns, calls, crew, hvisits, hmoved, hcomes⟩ := begin_updates h
  have hpublishers := publishers_of_comesTo hcomes
  obtain ⟨hready, hstanding⟩ : (sim.begin .updates).pool.ready = [] ∧
      Standing sim.world ([] ++ turns) (sim.begin .updates) :=
    standing_of_comesTo rfl hcomes h.waiting h.receiver rfl (List.forall_mem_nil _)
  refine ⟨?_, turns, rfl, hready, hmoved.clear, hvisits, ⟨calls, hmoved.taken, ?_⟩, hstanding⟩
  · show (sim.begin .updates).pool.world.images.publishers[0]?.getD false = _
    rw [hpublishers]
    rfl
  · exact hmoved.performed.mono fun _ _ hnever => hnever.elim

end Followed

/-! ## The end -/

/-- Which steps leave unknown what runs. -/
theorem isFatal_iff (e : ReplaceError) :
    e.isFatal = true ↔ e.step ∈ [.confirmExit, .prune, .confirmPrune, .confirmStart] := by
  unfold ReplaceError.isFatal ReplaceError.severity
  cases e.step <;> simp [ReplaceStep.severity]

/-- The updates take the items of the stream in order, whatever else happens, and the updater has
its turn before the supervisor.  They end at the first replace that fails fatally: that error is
told, and nothing else, and nothing is done or told after it.  If none does, nothing is told, every
item is taken, and they end iff the stream does. -/
theorem updates_end_once {items : List ImageRefs} {sim : Simulation ρ} (h : sim.Holds items)
    (happenings : List (Happening ρ)) :
    let after := (sim.begin .updates).live happenings
    let stream := items ++ announced (sim.world.images.hasPublisher 0) happenings
    ∃ turns calls,
      Visits (points stream) turns ∧
      Taken sim.settings turns sim.world.crew.roster calls after.world.crew.roster ∧
      Performed (fun b b' => ∃ f, .changes f ∈ happenings ∧ b' = f b) sim.world.crew.backend calls
        after.world.crew.backend ∧
      (∀ turn ∈ turns, ∀ e, turn.result = .error e →
        e.step ∈ [.confirmExit, .prune, .confirmPrune, .confirmStart] →
          turns.getLast? = some turn ∧ after.isIdle = true ∧
          after.world.fatal = .replace e :: sim.world.fatal ∧
          (ServiceError.replace e).severity = .fatal ∧
          ∀ later, (after.live later).isIdle = true ∧
            (after.live later).world.fatal = after.world.fatal ∧
            (after.live later).world.crew =
              { after.world.crew with backend := drift later after.world.crew.backend }) ∧
      ((∀ turn ∈ turns, ∀ e, turn.result = .error e →
          e.step ∉ [.confirmExit, .prune, .confirmPrune, .confirmStart]) →
        turns.map (fun turn => (turn.role, turn.refs)) = points stream ∧
          after.world.fatal = sim.world.fatal ∧
          (after.isIdle = true ↔ after.world.images.publishers.any id = false)) := by
  intro after stream
  let outside : ρ → ρ → Prop := fun b b' => ∃ f, .changes f ∈ happenings ∧ b' = f b
  obtain ⟨hpublisher, turns₀, hbegin⟩ := followed_begin outside h
  obtain ⟨turns, hlive⟩ := hbegin.live fun f hmem b => ⟨f, hmem, rfl⟩
  rw [hpublisher] at hlive
  obtain ⟨calls, htaken, hperformed⟩ := hlive.account
  refine ⟨turns, calls, hlive.visits, htaken, hperformed, ?_, ?_⟩
  · intro turn hmem e herror hstep
    have hworst : isFatal turn.result = true := by
      rw [herror]
      exact (isFatal_iff e).2 hstep
    have hlast := hlive.visits.getLast?_of_fatal hmem hworst
    cases hlive.standing with
    | follows number hturns =>
      rw [hturns turn hmem] at hworst
      cases hworst
    | ended hturns =>
      rw [hturns turn hmem] at hworst
      cases hworst
    | failed e' hfails hwaiting hdropped hfatal =>
      -- The last turn is the one that failed.
      obtain ⟨turn', hmem', herror', hworst'⟩ := hfails
      have hlast' : turns.getLast? = some turn' :=
        hlive.visits.getLast?_of_fatal hmem' (by rw [herror']; exact hworst')
      obtain rfl : turn' = turn := Option.some.inj (hlast'.symm.trans hlast)
      obtain rfl : e' = e := Except.error.inj (herror'.symm.trans herror)
      have hidle := live_of_idle hlive.ready hwaiting
      exact ⟨hlast, (hidle []).1, hfatal, of_decide_eq_true hworst', hidle⟩
  · intro hrecoverable
    have hturns : ∀ turn ∈ turns, isFatal turn.result = false := by
      intro turn hmem
      cases hresult : turn.result with
      | ok outcome => rfl
      | error e =>
        refine Bool.eq_false_iff.2 fun hworst => ?_
        exact hrecoverable turn hmem e hresult ((isFatal_iff e).1 hworst)
    have hall := hlive.visits.map_eq hturns
    cases hlive.standing with
    | follows number hturns hwaiting hreceiver hpending hpublishers hfatal =>
      refine ⟨hall, hfatal, ?_⟩
      rw [hpublishers]
      simp [isIdle, hwaiting, after]
    | ended hturns hwaiting hreceiver hpublishers hfatal =>
      refine ⟨hall, hfatal, ?_⟩
      rw [hpublishers]
      simp [isIdle, hwaiting, hlive.ready, after]
    | failed e hfails =>
      obtain ⟨turn, hmem, herror, hworst⟩ := hfails
      exact absurd ((isFatal_iff e).1 hworst) (hrecoverable turn hmem e herror)

/-- A service with a stream of one item, in whose memory no start can be confirmed. -/
def unconfirmed : Simulation Container.Memory where
  settings := Crew.developmentSettings
  pool := { world := {
    crew := { backend := { failing := [.awaitStart] } }
    images := {
      embedded := Crew.Sample.refs "sup:v0"
      receiver := .streaming
      pending := [Crew.Sample.refs "sup:v1"] }
    probe := .failingAt [] none } }

/-- The updater is started, its start is not confirmed, and that is the end. -/
theorem updates_end_once_unconfirmed :
    unconfirmed.Holds [Crew.Sample.refs "sup:v1"] ∧
      ∃ turns calls,
        Taken unconfirmed.settings turns {} calls
          ((unconfirmed.begin .updates).live
            [.publishes [Crew.Sample.refs "sup:v2"], .elapses 10]).world.crew.roster ∧
        ∃ turn ∈ turns, ∃ e, turn.result = .error e ∧ e.step = .confirmStart ∧
          turns.getLast? = some turn := by
  let happenings : List (Happening Container.Memory) :=
    [.publishes [Crew.Sample.refs "sup:v2"], .elapses 10]
  have holds : unconfirmed.Holds [Crew.Sample.refs "sup:v1"] :=
    ⟨rfl, rfl, ⟨rfl, rfl, rfl⟩, rfl, rfl⟩
  obtain ⟨turns, calls, -, htaken, -, hfatal, hnone⟩ := updates_end_once holds happenings
  have htold : ((unconfirmed.begin .updates).live happenings).world.fatal =
      [.replace ⟨.updater, .confirmStart, "upd:v1", some "ctr_000000000000",
        Container.Memory.toldToFail .awaitStart⟩] := rfl
  refine ⟨holds, turns, calls, htaken, ?_⟩
  by_contra hwithout
  have hrecoverable : ∀ turn ∈ turns, ∀ e, turn.result = .error e →
      e.step ∉ [.confirmExit, .prune, .confirmPrune, .confirmStart] := by
    intro turn hmem e herror hstep
    obtain ⟨hlast, -, hfatal, -⟩ := hfatal turn hmem e herror hstep
    have hsame := hfatal.symm.trans htold
    have herrors := ServiceError.replace.inj (List.head_eq_of_cons_eq hsame)
    exact hwithout ⟨turn, hmem, e, herror, by rw [herrors], hlast⟩
  -- If no turn failed fatally, nothing would be told.
  have hempty := (hnone hrecoverable).2.1
  rw [htold] at hempty
  cases hempty

end Simulation
end Caretaker.Service
