import Caretaker.Proofs.Names
import Caretaker.Proofs.Owned

/-!
# What a replace leaves behind

In memory a replace keeps the old container of its role in its place, loses it, or begins a new one.
Which of the three it is depends on nothing but the operations that fail.  Containers of other names
stay as they are, but for those that exited.

Main statements:

- `Stripped`, `Removes.stripped`: what is left when a container was told to go.
- `Ends.aftermath`: what becomes of the container of a role by a replace.
-/

namespace Caretaker.Crew

open Container (Memory)
open Container.Memory (Bears Counted Evolves Owned Runs containers_perform isQuiet mem_of_answer
  notMem_of_answer)

/-! ## Taking a container away -/

section Stripped

variable {container : Option Handle} {m m' m'' : Memory}

/-- What is left when the container of a handle, if any, was told to go: no container was added, and
of those that ran at most that one stopped, if the signal can be delivered. -/
structure Stripped (container : Option Handle) (m m' : Memory) : Prop where
  started : m'.started = m.started
  failing : m'.failing = m.failing
  bears : ∀ name id, Bears name id m' → Bears name id m
  runs : ∀ name id, Runs name id m' ↔
    Runs name id m ∧ (container.map (·.id) = some id → .terminate ∈ m.failing)

theorem Stripped.trans (h : Stripped container m m') (h' : Stripped none m' m'') :
    Stripped container m m'' where
  started := h'.started.trans h.started
  failing := h'.failing.trans h.failing
  bears name id hbears := h.bears name id (h'.bears name id hbears)
  runs name id := by
    rw [h'.runs, h.runs]
    simp

/-- Where the containers are the same, nothing was taken away. -/
theorem Stripped.of_same (hcontainers : m'.containers = m.containers)
    (hstarted : m'.started = m.started) (hfailing : m'.failing = m.failing) :
    Stripped none m m' where
  started := hstarted
  failing := hfailing
  bears name id := by
    unfold Bears
    rw [hcontainers]
    exact fun h => h
  runs name id := by
    unfold Runs
    rw [hcontainers]
    simp

theorem stripped_quiet {c : Container.Call}
    (h : isQuiet c = true ∨ c.operation ∈ m.failing) : Stripped none m (m.perform c).state :=
  .of_same (containers_perform h).1 (containers_perform h).2
    (Container.Memory.failing_perform c m)

theorem stripped_terminate (old : Handle) :
    Stripped (some old) m (m.perform (.terminate old.id)).state where
  started := by
    have h := Container.Memory.becomes_perform (.terminate old.id) m
    generalize (m.perform (.terminate old.id)).state = m' at h
    cases h <;> rfl
  failing := Container.Memory.failing_perform _ m
  bears name id := (Container.Memory.bears_terminate old.id).1
  runs name id := by
    rw [Container.Memory.runs_terminate, Option.map_some, Option.some.injEq]

theorem stripped_prune : Stripped none m (m.perform .prune).state where
  started := by
    have h := Container.Memory.becomes_perform .prune m
    generalize (m.perform .prune).state = m' at h
    cases h with
    | unchanged => rfl
    | moved _ _ _ hc => rcases hc with hc | hc | hc <;> cases hc
    | pruned => rfl
  failing := Container.Memory.failing_perform _ m
  bears name id := Container.Memory.Bears.of_pruned
  runs name id := by
    rw [Container.Memory.runs_prune]
    simp

/-- A signal, with any number of calls after it of which none starts a container. -/
theorem stripped_removal {old : Handle} {signalled : Except Container.Fault Unit}
    {calls : List Exchange} (hanswered : Answered m (⟨.terminate old.id, signalled⟩ :: calls) m')
    (hcalls : ∀ exchange ∈ calls, exchange.call = .prune ∨ isQuiet exchange.call = true) :
    Stripped (some old) m m' := by
  obtain ⟨-, hrest⟩ := hanswered
  have hsignal := stripped_terminate (m := m) old
  generalize (m.perform (.terminate old.id)).state = m₁ at hrest hsignal
  induction calls generalizing m₁ with
  | nil =>
    obtain rfl : m' = m₁ := hrest
    exact hsignal
  | cons exchange calls ih =>
    obtain ⟨-, hrest⟩ := hrest
    have hstep : Stripped none m₁ (m₁.perform exchange.call).state := by
      rcases hcalls exchange List.mem_cons_self with hprune | hquiet
      · rw [hprune]
        exact stripped_prune
      · exact stripped_quiet (.inl hquiet)
    exact ih (fun other hmem => hcalls other (List.mem_cons_of_mem _ hmem)) _ hrest
      (hsignal.trans hstep)

end Stripped

/-! ## Three outcomes -/

/-- What becomes of the container of a role by a replace in memory. -/
inductive Aftermath (role : Role) (slot : Slot) (m : Memory) (slot' : Slot) (m' : Memory) :
    Prop where
  /-- The exit of the old container was not confirmed, and it keeps its place. -/
  | kept (hold : slot.container.isSome = true) (hsame : slot'.container = slot.container)
      (hexit : .awaitExit ∈ m.failing) (hleft : Stripped slot.container m m')
  /-- The old container, if any, lost its place, and none came after it. -/
  | lost (hnone : slot'.container = none)
      (hexit : slot.container.isSome = true → .awaitExit ∉ m.failing)
      (hstep : .prune ∈ m.failing ∨ .awaitPrune ∈ m.failing ∨ .ensureImage ∈ m.failing ∨
        .start ∈ m.failing)
      (hleft : Stripped slot.container m m')
  /-- A new container was started, and is alone under its name. -/
  | begun (handle : Handle) (hsome : slot'.container = some handle)
      (howned : Owned role.containerName handle.id m')
      (hown : ∀ id, (Bears role.containerName id m' ↔ id = handle.id) ∧
        (Runs role.containerName id m' ↔ id = handle.id))
      (hothers : ∀ name ≠ role.containerName, ∀ id,
        (Bears name id m' → Bears name id m) ∧
          (Runs name id m' ↔
            Runs name id m ∧ (slot.container.map (·.id) = some id → .terminate ∈ m.failing)))

section Aftermath

variable {settings : Settings} {role : Role} {refs : ImageRefs} {slot slot' : Slot}
  {container : Option Handle} {calls removal : List Exchange} {result : Replaced} {m m' : Memory}

theorem Removes.stripped (h : Removes container removal) (hanswered : Answered m removal m') :
    Stripped container m m' ∧ (container.isSome = true → .awaitExit ∉ m.failing) := by
  cases h with
  | nothing =>
    obtain rfl : m' = m := hanswered
    exact ⟨.of_same rfl rfl rfl, nofun⟩
  | removed old signalled =>
    refine ⟨stripped_removal hanswered (by simp [isQuiet]), fun _ => ?_⟩
    obtain ⟨-, hexit, -⟩ := hanswered
    have hsucceeds := notMem_of_answer hexit.symm
    rwa [Container.Memory.failing_perform] at hsucceeds

theorem Answered.evolves (h : Answered m calls m') : Evolves m m' := by
  induction calls generalizing m with
  | nil =>
    obtain rfl : m' = m := h
    exact .refl _
  | cons exchange calls ih => exact (Container.Memory.perform_evolves _ m).trans (ih h.2)

theorem Answered.counted (h : Answered m calls m') (hcounted : Counted m) : Counted m' := by
  induction calls generalizing m with
  | nil =>
    obtain rfl : m' = m := h
    exact hcounted
  | cons exchange calls ih => exact ih h.2 (hcounted.perform exchange.call)

/-- A container that is started once the old one was told to go is alone under its name. -/
theorem aftermath_of_started {m₁ : Memory} {user used : String} {handle : Handle}
    {confirmed : Except Container.Fault Unit} (hleft : Stripped slot.container m m₁)
    (hcounted : Counted m₁) (hsome : slot'.container = some handle)
    (hanswered : Answered m₁
      [⟨.ensureImage user used, .ok ()⟩, ⟨.start (role.descriptor settings used refs), .ok handle⟩,
        ⟨.awaitStart handle.id, confirmed⟩] m') :
    Aftermath role slot m slot' m' := by
  obtain ⟨-, hstart, -, rfl⟩ := hanswered
  -- The image is looked for, the container starts, and its start is waited for.
  let ensured := (m₁.perform (.ensureImage user used)).state
  let started := (ensured.perform (.start (role.descriptor settings used refs))).state
  have hensured : Stripped none m₁ ensured := stripped_quiet (.inl rfl)
  have hcounted' : Counted ensured := hcounted.perform _
  have hsucceeds : .start ∉ ensured.failing := notMem_of_answer hstart.symm
  have hhandle : handle.id = Container.Memory.idOf ensured.started := by
    have hanswer := hstart.trans (Container.Memory.perform_start hsucceeds).2
    rw [Except.ok.inj hanswer]
  have howned : Owned role.containerName handle.id
      (started.perform (.awaitStart handle.id)).state := by
    rw [← @descriptor_name settings role refs used]
    exact (Container.Memory.owned_of_start hstart.symm).evolves
      (Container.Memory.perform_evolves _ _)
  have hwaited : (started.perform (.awaitStart handle.id)).state.containers = started.containers :=
    (containers_perform (.inl rfl)).1
  have hbears : ∀ name id, Bears name id (started.perform (.awaitStart handle.id)).state ↔
      if name = role.containerName then id = handle.id else Bears name id ensured := by
    intro name id
    rw [hhandle, ← @descriptor_name settings role refs used,
      ← Container.Memory.bears_start hcounted' hsucceeds]
    unfold Bears
    rw [← hhandle, hwaited]
  have hruns : ∀ name id, Runs name id (started.perform (.awaitStart handle.id)).state ↔
      if name = role.containerName then id = handle.id else Runs name id ensured := by
    intro name id
    rw [hhandle, ← @descriptor_name settings role refs used,
      ← Container.Memory.runs_start hcounted' hsucceeds]
    unfold Runs
    rw [← hhandle, hwaited]
  have hall : Stripped slot.container m ensured := hleft.trans hensured
  refine .begun handle hsome howned (fun id => ⟨?_, ?_⟩) fun name hname id => ⟨?_, ?_⟩
  · rw [hbears, if_pos rfl]
  · rw [hruns, if_pos rfl]
  · rw [hbears, if_neg hname]
    exact hall.bears name id
  · rw [hruns, if_neg hname]
    exact hall.runs name id

/-- In memory, a replace keeps the old container of the role, loses it, or begins a new one. -/
theorem Ends.aftermath (h : Ends settings role refs slot calls result slot')
    (hanswered : Answered m calls m') (hcounted : Counted m) : Aftermath role slot m slot' m' := by
  cases h with
  | exitUnconfirmed old signalled cause hold =>
    have hleft := stripped_removal hanswered (by simp [isQuiet])
    obtain ⟨-, hexit, -⟩ := hanswered
    have hfails := mem_of_answer rfl hexit.symm
    rw [Container.Memory.failing_perform] at hfails
    rw [← hold] at hleft
    exact .kept (by rw [hold]; rfl) rfl hfails hleft
  | pruneFailed old signalled cause hold =>
    have hleft := stripped_removal hanswered (by simp [isQuiet])
    obtain ⟨-, hexit, hprune, -⟩ := hanswered
    have hsucceeds := notMem_of_answer hexit.symm
    have hfails := mem_of_answer rfl hprune.symm
    simp only [Container.Memory.failing_perform] at hsucceeds hfails
    rw [← hold] at hleft
    exact .lost rfl (fun _ => hsucceeds) (.inl hfails) hleft
  | removalUnconfirmed old signalled cause hold =>
    have hleft := stripped_removal hanswered (by simp [isQuiet])
    obtain ⟨-, hexit, -, hconfirm, -⟩ := hanswered
    have hsucceeds := notMem_of_answer hexit.symm
    have hfails := mem_of_answer rfl hconfirm.symm
    simp only [Container.Memory.failing_perform] at hsucceeds hfails
    rw [← hold] at hleft
    exact .lost rfl (fun _ => hsucceeds) (.inr (.inl hfails)) hleft
  | imageMissing removal cause hremoval =>
    obtain ⟨m₁, hremoved, hensure, rfl⟩ := answered_append.1 hanswered
    obtain ⟨hleft, hexit⟩ := hremoval.stripped hremoved
    have hfails := mem_of_answer rfl hensure.symm
    rw [hleft.failing] at hfails
    exact .lost rfl hexit (.inr (.inr (.inl hfails))) (hleft.trans (stripped_quiet (.inl rfl)))
  | startFailed removal cause hremoval =>
    obtain ⟨m₁, hremoved, -, hstart, rfl⟩ := answered_append.1 hanswered
    obtain ⟨hleft, hexit⟩ := hremoval.stripped hremoved
    have hensured := hleft.trans
      (stripped_quiet (c := .ensureImage role.name (settings.usedImage (refs.of role))) (.inl rfl))
    have hfails := mem_of_answer rfl hstart.symm
    refine .lost rfl hexit (.inr (.inr (.inr ?_))) (hensured.trans (stripped_quiet (.inr hfails)))
    rwa [hensured.failing] at hfails
  | startUnconfirmed removal handle cause hremoval =>
    obtain ⟨m₁, hremoved, hfilled⟩ := answered_append.1 hanswered
    exact aftermath_of_started (hremoval.stripped hremoved).1 (hremoved.counted hcounted) rfl
      hfilled
  | replaced removal handle hremoval =>
    obtain ⟨m₁, hremoved, hfilled⟩ := answered_append.1 hanswered
    exact aftermath_of_started (hremoval.stripped hremoved).1 (hremoved.counted hcounted) rfl
      hfilled

end Aftermath

end Caretaker.Crew
