import Mathlib.Algebra.Group.Nat.Defs
import Caretaker.Proofs.Aftermath
import Caretaker.Proofs.Bystander
import Caretaker.Proofs.Sights

/-!
# What runs after a replace

The crew and the containers in memory are kept apart, and many things go wrong between them.  But
where a replace says that a role runs an image, memory has a container of that image under the name
of the role, which runs, is the only one of that name, and has an id that was never given before.

Main statements:

- `Session.Step.backend_cases`: what a step of a session does to the backend.
- `Session.started_le_of_steps`: along a session the ids that were given only grow in number.
- `replaced_runs`: what memory and the slot have after a replace that succeeded.
-/

namespace Caretaker.Crew

open Container (Backend Memory Stored)
open Container.Memory (Counted Meddles containers_perform get?_perform_start idOf notMem_of_answer)
open Script

/-! ## Backends along a session -/

section Backends

variable {ρ : Type} [Backend ρ] {settings : Settings} {outside : ρ → ρ → Prop}

/-- Of all requests only a call changes the backend. -/
theorem World.backend_attempt (w : World ρ) (who : Nat) (r : Request) :
    (w.attempt who r).2.backend = w.backend ∨
      ∃ c, (w.attempt who r).2.backend = (Backend.perform c w.backend).state := by
  cases r with
  | call c =>
    simp only [World.attempt]
    split
    · exact .inl rfl
    · exact .inr ⟨c, rfl⟩
  | _ => exact .inl rfl

/-- In a step of a session the backend answers a call, moves on its own, or stays as it is. -/
theorem Session.Step.backend_cases {s s' : Session ρ} (h : Session.Step settings outside s s') :
    s'.world.backend = s.world.backend ∨
      (∃ c, s'.world.backend = (Backend.perform c s.world.backend).state) ∨
      outside s.world.backend s'.world.backend := by
  cases h with
  | begins => exact .inl rfl
  | answers who op r next answer w hwho hattempt =>
    have hbackend := s.world.backend_attempt who r
    rw [hattempt] at hbackend
    rw [Session.world_goOn]
    rcases hbackend with hsame | hcall
    · exact .inl hsame
    · exact .inr (.inl hcall)
  | waits who op r next w hwho hattempt =>
    have hbackend := s.world.backend_attempt who r
    rw [hattempt] at hbackend
    rcases hbackend with hsame | hcall
    · exact .inl hsame
    · exact .inr (.inl hcall)
  | moves b hmove => exact .inr (.inr hmove)
  | gates => exact .inl rfl

end Backends

namespace Session

variable {settings : Settings} {m : Memory} {s s' : Session Memory}

/-- In a step no id is used that was not given, and none is taken back. -/
theorem Step.counted (h : Step settings Meddles s s') (hcounted : Counted s.world.backend) :
    Counted s'.world.backend ∧ s.world.backend.started ≤ s'.world.backend.started := by
  rcases h.backend_cases with hsame | ⟨c, hcall⟩ | hmove
  · rw [hsame]
    exact ⟨hcounted, Nat.le_refl _⟩
  · rw [hcall]
    exact ⟨hcounted.perform c, (Container.Memory.perform_evolves c _).started⟩
  · exact ⟨hcounted.meddles hmove, hmove.evolves.started⟩

theorem Reachable.counted (h : Reachable settings Meddles m s) (hcounted : Counted m) :
    Counted s.world.backend := by
  induction h with
  | start => exact hcounted
  | step _ hstep ih => exact (hstep.counted ih).1

/-- The number of the ids that were given does not fall. -/
theorem started_le_of_steps (h : Relation.ReflTransGen (Step settings Meddles) s s')
    (hcounted : Counted s.world.backend) :
    Counted s'.world.backend ∧ s.world.backend.started ≤ s'.world.backend.started := by
  induction h with
  | refl => exact ⟨hcounted, Nat.le_refl _⟩
  | tail _ hstep ih =>
    obtain ⟨hcounted', hle⟩ := hstep.counted ih.1
    exact ⟨hcounted', Nat.le_trans ih.2 hle⟩

end Session

/-! ## The container of a replace -/

/-- The calls that are seen of a run are those that memory answers in it. -/
theorem answered_sights {α : Type} (t : Transaction α) (w : World Memory) :
    Answered w.backend (exchanges (t.sights w)) (t.run w).2.backend := by
  induction t generalizing w with
  | done value => rfl
  | ask r next ih =>
    rw [sights_ask, exchanges_append]
    have hrest := ih (w.answer r).1 (w.answer r).2
    cases r with
    | call c => exact ⟨rfl, hrest⟩
    | _ => exact hrest

/-- The images that were ensured by some calls, the first one first. -/
def imagesEnsured (calls : List Exchange) : List String :=
  calls.filterMap fun exchange =>
    match exchange.call with
    | .ensureImage _ image => some image
    | _ => none

section Replaced

variable {settings : Settings} {role : Role} {refs : ImageRefs} {slot slot' : Slot}
  {container : Option Handle} {calls removal : List Exchange} {m m' : Memory}

/-- To remove a container ensures no image. -/
theorem Removes.imagesEnsured (h : Removes container removal) (filling : List Exchange) :
    imagesEnsured (removal ++ filling) = Crew.imagesEnsured filling := by
  cases h with
  | nothing => rfl
  | removed => rfl

/-- A turn that ended with another image is a replace that came to its good end. -/
theorem Turn.Changes.replaced {forced : Bool} {image id : String}
    (h : Turn.Changes settings slot ⟨role, refs, forced, .ok (.replaced image id)⟩ calls slot') :
    ∃ removal handle, Removes slot.container removal ∧ image = refs.of role ∧ handle.id = id ∧
      slot' = { image := some image, container := some handle, phase := .running image } ∧
      calls = removal ++
        [⟨.ensureImage role.name (settings.usedImage image), .ok ()⟩,
          ⟨.start (role.descriptor settings (settings.usedImage image) refs), .ok handle⟩,
          ⟨.awaitStart handle.id, .ok ()⟩] := by
  cases h with
  | attempted role refs forced hneeded hends =>
    cases hends with
    | replaced removal handle hremoval => exact ⟨removal, handle, hremoval, rfl, rfl, rfl, rfl⟩

/-- An update that told of a new container went through its calls, and recorded the container. -/
theorem run_giving_replaced {ρ : Type} [Backend ρ] {w : World ρ} {forced : Bool} {image id : String}
    (hresult : (((Operation.giving role refs forced).transaction settings).run w).1 =
      .replaced (.ok (.replaced image id))) :
    let update := (Operation.giving role refs forced).transaction settings
    ∃ removal handle, Removes (w.roster.slot role).container removal ∧ image = refs.of role ∧
      handle.id = id ∧
      (update.run w).2.roster.slot role =
        { image := some image, container := some handle, phase := .running image } ∧
      exchanges (update.sights w) = removal ++
        [⟨.ensureImage role.name (settings.usedImage image), .ok ()⟩,
          ⟨.start (role.descriptor settings (settings.usedImage image) refs), .ok handle⟩,
          ⟨.awaitStart handle.id, .ok ()⟩] := by
  intro update
  have hupdate : (Operation.giving role refs forced).isUpdate = true := by cases forced <;> rfl
  have hwork : ((Operation.giving role refs forced).work settings).Ensures Account.rule _
      w.account := Operation.ensures_work hupdate _
  obtain ⟨calls, htaken, hcalls, -⟩ := Transaction.ensures_calls hwork
  rw [← Operation.run_transaction, hresult] at htaken
  rw [← Operation.run_transaction, ← Operation.sights_transaction] at hcalls
  -- The update has a single turn, which tells how its slot changed.
  have hturns : (Operation.giving role refs forced).turns (.replaced (.ok (.replaced image id))) =
      [⟨role, refs, forced, .ok (.replaced image id)⟩] := by cases forced <;> rfl
  rw [hturns] at htaken
  obtain ⟨slot, hturn, hroster⟩ := htaken.of_single
  have hseen : exchanges (update.sights w) = calls := hcalls
  have hslot : (update.run w).2.roster.slot role = slot := by
    have h := congrArg (fun roster : Roster => roster.slot role) hroster
    rwa [Roster.slot_put_self] at h
  obtain ⟨removal, handle, hremoval, himage, hid, rfl, rfl⟩ := hturn.replaced
  exact ⟨removal, handle, hremoval, himage, hid, hslot, hseen⟩

/-- What memory has for a role whose new container was started and confirmed. -/
structure Genuine (role : Role) (handle : Handle) (image : String) (m : Memory) : Prop where
  there : m.containers.get? handle.id =
    some ⟨⟨handle.id, role.containerName, image, .running⟩, handle.descriptor⟩
  sole : ∀ other c, m.containers.get? other = some c → c.info.name = role.containerName →
    other = handle.id

/-- What is started in memory and confirmed is there and alone under its name. -/
theorem genuine_of_started {user used : String} {handle : Handle} (hcounted : Counted m)
    (hanswered : Answered m
      [⟨.ensureImage user used, .ok ()⟩, ⟨.start (role.descriptor settings used refs), .ok handle⟩,
        ⟨.awaitStart handle.id, .ok ()⟩] m') :
    handle.id = idOf m.started ∧ Genuine role handle used m' := by
  obtain ⟨-, hstart, -, rfl⟩ := hanswered
  let descriptor := role.descriptor settings used refs
  let ensured := (m.perform (.ensureImage user used)).state
  let started := (ensured.perform (.start descriptor)).state
  -- The calls before and after the start change no container.
  have hensured : ensured.started = m.started := (containers_perform (.inl rfl)).2
  have hconfirmed : (started.perform (.awaitStart handle.id)).state.containers =
      started.containers := (containers_perform (.inl rfl)).1
  have hcounted' : Counted ensured := hcounted.perform _
  have hsucceeds : .start ∉ ensured.failing := notMem_of_answer hstart.symm
  have hhandle : handle = { id := idOf m.started, name := descriptor.name, descriptor } := by
    have hanswer := hstart.trans (Container.Memory.perform_start hsucceeds).2
    rw [← hensured]
    exact Except.ok.inj hanswer
  have hname : descriptor.name = role.containerName := descriptor_name
  have himage : descriptor.image = used := descriptor_image
  have hget : ∀ id c, started.containers.get? id = some c ↔
      id = idOf ensured.started ∧
          c = ⟨⟨idOf ensured.started, descriptor.name, descriptor.image, .running⟩, descriptor⟩ ∨
        ensured.containers.get? id = some c ∧ c.info.name ≠ descriptor.name :=
    fun id c => get?_perform_start hcounted' hsucceeds c
  refine ⟨by rw [hhandle], ?_, ?_⟩
  · show (started.perform (.awaitStart handle.id)).state.containers.get? handle.id = _
    rw [hconfirmed, hhandle, ← hname, ← hensured]
    rw [(hget _ _).2 (.inl ⟨rfl, rfl⟩), himage]
  · intro other c hc hother
    have hc' : started.containers.get? other = some c := by
      rw [← hconfirmed]
      exact hc
    rcases (hget other c).1 hc' with ⟨hid, -⟩ | ⟨-, hne⟩
    · rw [hid, hhandle, hensured]
    · exact absurd (hother.trans hname.symm) hne

end Replaced

/-! ## Leftovers of another crew -/

namespace Sample

/-- Memory in which another crew left a supervisor that runs and an updater that exited. -/
def leftover : Memory :=
  let supervisor := Role.supervisor.descriptor developmentSettings "sup:v0" (refs "sup:v0")
  let updater := Role.updater.descriptor developmentSettings "upd:v0" (refs "sup:v0")
  let m := (((({} : Memory).perform (.start supervisor)).state).perform (.start updater)).state
  m.setState (idOf 1) .exited

theorem counted_leftover : Counted leftover := by
  have hnone : Counted {} := by
    intro id hid
    cases hid
  exact ((hnone.perform _).perform _).setState _ _

/-- A supervisor was launched beside what was left over, and signals are not delivered. -/
def deaf : Session Memory :=
  ((Session.fresh leftover).moved (.fail .terminate)).conclude developmentSettings
    (.replace .supervisor (refs "sup:v1"))

theorem reachable_deaf : Session.Reachable developmentSettings Meddles leftover deaf := by
  have hidle := Session.idle_fresh leftover
  have hmoved : Session.Reachable developmentSettings Meddles leftover _ :=
    Session.Reachable.moved .start (.fails .terminate)
  exact hmoved.concluded (hidle.moved _) _

end Sample

/-- After a replace that succeeded, the slot of the role and memory agree: memory has a container of
the id that was told, which runs the image that the replace ensured last, under the name of the role
and alone there, with the descriptor of the handle in the slot.  Nothing had that id at any time
before, whatever was left over in memory, and whatever fails; and with fewer than `2 ^ 64` starts
before this one a counter of 64 bits gives it. -/
theorem replaced_runs {settings : Settings} {m : Memory} (hcounted : Counted m)
    {s : Session Memory} (h : Session.Reachable settings Meddles m s) {role : Role}
    {refs : ImageRefs} {forced : Bool} {image id : String}
    (hresult : (((Operation.giving role refs forced).transaction settings).run s.world).1 =
      .replaced (.ok (.replaced image id))) :
    let update := (Operation.giving role refs forced).transaction settings
    let w' := (update.run s.world).2
    ∃ handle stored, handle.id = id ∧ image = refs.of role ∧
      w'.roster.slot role =
        { image := some image, container := some handle, phase := .running image } ∧
      w'.backend.containers.get? id = some stored ∧
      stored.info.id = id ∧ stored.info.state = .running ∧ stored.info.name = role.containerName ∧
      (imagesEnsured (exchanges (update.sights s.world))).getLast? = some stored.info.image ∧
      stored.descriptor = handle.descriptor ∧
      (∀ other c, w'.backend.containers.get? other = some c → c.info.name = role.containerName →
        other = id) ∧
      (∀ s₀, Session.Reachable settings Meddles m s₀ →
        Relation.ReflTransGen (Session.Step settings Meddles) s₀ s →
        s₀.world.backend.containers.get? id = none) ∧
      (s.world.backend.started < 2 ^ 64 →
        id = idOf (UInt64.ofNat s.world.backend.started).toNat) := by
  intro update w'
  obtain ⟨removal, handle, hremoval, himage, hid, hslot, hcalls⟩ := run_giving_replaced hresult
  have hanswered := answered_sights update s.world
  rw [hcalls] at hanswered
  obtain ⟨m₁, hremoved, hfilled⟩ := answered_append.1 hanswered
  have hcounted₀ : Counted s.world.backend := h.counted hcounted
  have hstarted₁ : m₁.started = s.world.backend.started := (hremoval.stripped hremoved).1.started
  obtain ⟨hnew, hgenuine⟩ := genuine_of_started (hremoved.counted hcounted₀) hfilled
  let stored : Stored :=
    ⟨⟨handle.id, role.containerName, settings.usedImage image, .running⟩, handle.descriptor⟩
  refine ⟨handle, stored, hid, himage, hslot, ?_, hid, rfl, rfl, ?_, rfl, ?_, ?_, ?_⟩
  · rw [← hid]
    exact hgenuine.there
  · rw [hcalls, hremoval.imagesEnsured]
    rfl
  · rw [← hid]
    exact hgenuine.sole
  · -- The ids that were given before have smaller numbers.
    intro s₀ hreach₀ hsteps
    have hle := (Session.started_le_of_steps hsteps (hreach₀.counted hcounted)).2
    rw [← hid, hnew, hstarted₁]
    exact (hreach₀.counted hcounted).get?_idOf hle
  · intro hfew
    rw [← hid, hnew, hstarted₁, UInt64.toNat_ofNat_of_lt' hfew]

theorem replaced_runs_deaf :
    let update := (Operation.giving .supervisor (Sample.refs "sup:v2") false).transaction
      developmentSettings
    let w' := (update.run Sample.deaf.world).2
    Counted Sample.leftover ∧
      Session.Reachable developmentSettings Meddles Sample.leftover Sample.deaf ∧
      (update.run Sample.deaf.world).1 =
        .replaced (.ok (.replaced "sup:v2" "ctr_000000000003")) ∧
      ∃ handle stored, handle.id = "ctr_000000000003" ∧
        "sup:v2" = (Sample.refs "sup:v2").of .supervisor ∧
        w'.roster.slot .supervisor =
          { image := some "sup:v2", container := some handle, phase := .running "sup:v2" } ∧
        w'.backend.containers.get? "ctr_000000000003" = some stored ∧
        stored.info.id = "ctr_000000000003" ∧ stored.info.state = .running ∧
        stored.info.name = Role.supervisor.containerName ∧
        (imagesEnsured (exchanges (update.sights Sample.deaf.world))).getLast? =
          some stored.info.image ∧
        stored.descriptor = handle.descriptor ∧
        (∀ other c, w'.backend.containers.get? other = some c →
          c.info.name = Role.supervisor.containerName → other = "ctr_000000000003") ∧
        (∀ s₀, Session.Reachable developmentSettings Meddles Sample.leftover s₀ →
          Relation.ReflTransGen (Session.Step developmentSettings Meddles) s₀ Sample.deaf →
          s₀.world.backend.containers.get? "ctr_000000000003" = none) ∧
        (Sample.deaf.world.backend.started < 2 ^ 64 →
          "ctr_000000000003" = idOf (UInt64.ofNat Sample.deaf.world.backend.started).toNat) :=
  have hresult : (((Operation.giving .supervisor (Sample.refs "sup:v2") false).transaction
      developmentSettings).run Sample.deaf.world).1 =
        .replaced (.ok (.replaced "sup:v2" "ctr_000000000003")) := by rfl
  ⟨Sample.counted_leftover, Sample.reachable_deaf, hresult,
    replaced_runs Sample.counted_leftover Sample.reachable_deaf hresult⟩

end Caretaker.Crew
