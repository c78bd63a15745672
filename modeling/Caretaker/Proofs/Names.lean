import Mathlib.Tactic.ByContra
import Caretaker.Proofs.Memory

/-!
# Containers under a name

Which containers bear a name, and which of them run, can be followed from call to call.  A signal or
a prune only takes containers away, and what is started is the only one of its name.

Main statements:

- `Counted.perform`: no call uses an id that was not given, so that the next one is free.
- `runs_terminate`, `runs_prune`, `runs_start`: which containers run after a call.
-/

namespace Caretaker

namespace Container.Memory

variable {m m' : Memory} {name id other : String} {c : Call}

/-! ## Names and numbers -/

/-- Whether there is a container with an id and a name. -/
def Bears (name id : String) (m : Memory) : Prop :=
  ∃ c, m.containers.get? id = some c ∧ c.info.name = name

/-- Whether a container with an id and a name runs. -/
def Runs (name id : String) (m : Memory) : Prop :=
  ∃ c, m.containers.get? id = some c ∧ c.info.name = name ∧ c.info.state = .running

theorem Runs.bears (h : Runs name id m) : Bears name id m := by
  obtain ⟨c, hc, hname, -⟩ := h
  exact ⟨c, hc, hname⟩

/-- A container has one name. -/
theorem Bears.name_eq {name' : String} (h : Bears name id m) (h' : Bears name' id m) :
    name = name' := by
  obtain ⟨c, hc, rfl⟩ := h
  obtain ⟨c', hc', rfl⟩ := h'
  rw [Option.some.inj (hc.symm.trans hc')]

theorem Owned.name_eq_of_bears {name' : String} (h : Owned name id m) (h' : Bears name' id m) :
    name' = name := by
  obtain ⟨c, hc, rfl⟩ := h'
  exact h.name_eq hc

/-- Whether every container has an id that was given already. -/
def Counted (m : Memory) : Prop :=
  ∀ id, (m.containers.get? id).isSome = true → ∃ n < m.started, id = idOf n

/-- An id that was not given yet is free. -/
theorem Counted.get?_idOf (h : Counted m) {n : Nat} (hn : m.started ≤ n) :
    m.containers.get? (idOf n) = none := by
  cases hlater : m.containers.get? (idOf n) with
  | none => rfl
  | some c =>
    obtain ⟨k, hk, hid⟩ := h (idOf n) (by rw [hlater]; rfl)
    have hsame := idOf_injective hid
    omega

/-- The next id is free. -/
theorem Counted.get?_next (h : Counted m) : m.containers.get? (idOf m.started) = none :=
  h.get?_idOf (Nat.le_refl _)

/-- A container that is put into a state keeps its id. -/
theorem Counted.setState (h : Counted m) (other : String) (state : ContainerState) :
    Counted (m.setState other state) := by
  intro id hid
  rw [get?_setState] at hid
  split at hid
  · rw [Option.isSome_map] at hid
    exact h id hid
  · exact h id hid

/-- No call uses an id that was not given. -/
theorem Counted.perform (h : Counted m) (c : Call) : Counted (m.perform c).state := by
  have hbecomes := becomes_perform c m
  generalize (m.perform c).state = m' at hbecomes
  cases hbecomes with
  | unchanged => exact h
  | started descriptor =>
    intro id hid
    by_cases hnew : id = idOf m.started
    · exact ⟨m.started, Nat.lt_succ_self _, hnew⟩
    · rw [get?_start_of_ne (m := m.record _) descriptor hnew] at hid
      obtain ⟨c, hc⟩ := Option.isSome_iff_exists.1 hid
      have hthere : m.containers.get? id = some c := (Option.filter_eq_some_iff.1 hc).1
      obtain ⟨n, hn, rfl⟩ := h id (by rw [hthere]; rfl)
      exact ⟨n, Nat.lt_succ_of_lt hn, rfl⟩
  | moved c other state => exact Counted.setState (m := m.record c) h other state
  | pruned =>
    intro id hid
    rw [get?_pruned] at hid
    obtain ⟨c, hc⟩ := Option.isSome_iff_exists.1 hid
    have hthere : m.containers.get? id = some c := (Option.filter_eq_some_iff.1 hc).1
    exact h id (by rw [hthere]; rfl)
  | nuked =>
    intro id hid
    cases hid

/-- Whatever happens beside the calls of the crew, no id is used that was not given. -/
theorem Counted.meddles (h : Counted m) (hmeddles : Meddles m m') : Counted m' := by
  cases hmeddles with
  | fails operation =>
    unfold fail
    split
    · exact h
    · exact h
  | recovers => exact h
  | finds other state => exact h.setState other state
  | forgets => exact h
  | calls c => exact h.perform c

/-! ## Single calls -/

/-- Whether a call leaves all containers as they are. -/
def isQuiet : Call → Bool
  | .list | .awaitExit _ | .awaitStart _ | .awaitPrune _ | .ensureImage _ _ | .inspect _ => true
  | .start _ | .restart _ | .stop _ | .terminate _ | .prune | .nuke => false

/-- A quiet call, and one that fails, changes no container. -/
theorem containers_perform (h : isQuiet c = true ∨ c.operation ∈ m.failing) :
    (m.perform c).state.containers = m.containers ∧ (m.perform c).state.started = m.started := by
  by_cases hfails : c.operation ∈ m.failing
  · rw [perform_of_mem hfails]
    exact ⟨rfl, rfl⟩
  · have hquiet : isQuiet c = true := h.resolve_right hfails
    have hbecomes := becomes_perform c m
    generalize (m.perform c).state = m' at hbecomes
    cases hbecomes with
    | unchanged => exact ⟨rfl, rfl⟩
    | started => cases hquiet
    | moved c id state hc => rcases hc with rfl | rfl | rfl <;> cases hquiet
    | pruned => cases hquiet
    | nuked => cases hquiet

/-- A call that succeeds was not told to fail. -/
theorem notMem_of_answer {value : c.Value} (h : (m.perform c).answer = .ok value) :
    c.operation ∉ m.failing := by
  intro hfails
  rw [perform_of_mem hfails] at h
  cases h

/-- Whether a call fails only if it was told to. -/
def isSteady : Call → Bool
  | .list | .start _ | .stop _ | .awaitExit _ | .awaitStart _ | .prune | .awaitPrune _
  | .ensureImage _ _ | .nuke => true
  | .restart _ | .terminate _ | .inspect _ => false

theorem mem_of_answer (hsteady : isSteady c = true) {cause : Fault}
    (h : (m.perform c).answer = .error cause) : c.operation ∈ m.failing := by
  by_contra hsucceeds
  rw [perform_of_notMem hsucceeds] at h
  cases c with
  | restart => cases hsteady
  | terminate => cases hsteady
  | inspect => cases hsteady
  | _ => cases h

theorem get?_terminate (other : String) :
    (m.perform (.terminate other)).state.containers.get? id =
      if id = other ∧ .terminate ∉ m.failing then
        (m.containers.get? id).map (Stored.inState .exited)
      else m.containers.get? id := by
  by_cases hfails : .terminate ∈ m.failing
  · rw [(containers_perform (.inr hfails)).1, if_neg fun h => h.2 hfails]
  · rw [perform_of_notMem (by exact hfails)]
    simp only [serve, containers_record]
    split
    · next hnone =>
      -- The signal to a container that is not there changes nothing.
      split
      · next hid =>
        rw [hid.1, hnone]
        exact hnone
      · rfl
    · rw [get?_setState]
      simp [hfails]

theorem bears_terminate (other : String) :
    Bears name id (m.perform (.terminate other)).state ↔ Bears name id m := by
  unfold Bears
  rw [get?_terminate]
  split
  · constructor
    · rintro ⟨c, hc, hname⟩
      obtain ⟨c', hc', rfl⟩ := Option.map_eq_some_iff.1 hc
      exact ⟨c', hc', hname⟩
    · rintro ⟨c, hc, hname⟩
      exact ⟨c.inState .exited, by rw [hc]; rfl, hname⟩
  · exact Iff.rfl

/-- A container runs no longer once it got the signal. -/
theorem runs_terminate (other : String) :
    Runs name id (m.perform (.terminate other)).state ↔
      Runs name id m ∧ (other = id → .terminate ∈ m.failing) := by
  unfold Runs
  rw [get?_terminate]
  split
  · next hsignal =>
    constructor
    · rintro ⟨c, hc, -, hstate⟩
      obtain ⟨c', -, rfl⟩ := Option.map_eq_some_iff.1 hc
      cases hstate
    · rintro ⟨-, hfails⟩
      exact absurd (hfails hsignal.1.symm) hsignal.2
  · next hspared =>
    constructor
    · intro h
      refine ⟨h, fun hid => ?_⟩
      by_contra hsucceeds
      exact hspared ⟨hid.symm, hsucceeds⟩
    · rintro ⟨h, -⟩
      exact h

theorem Bears.of_pruned (h : Bears name id (m.perform .prune).state) : Bears name id m := by
  by_cases hfails : .prune ∈ m.failing
  · unfold Bears at h
    rwa [(containers_perform (.inr hfails)).1] at h
  · rw [perform_of_notMem (by exact hfails)] at h
    obtain ⟨c, hc, hname⟩ := h
    have hfilter : (m.containers.get? id).filter (·.info.state ≠ .exited) = some c :=
      get?_pruned.symm.trans hc
    exact ⟨c, (Option.filter_eq_some_iff.1 hfilter).1, hname⟩

/-- A container that runs is not pruned. -/
theorem runs_prune : Runs name id (m.perform .prune).state ↔ Runs name id m := by
  by_cases hfails : .prune ∈ m.failing
  · unfold Runs
    rw [(containers_perform (.inr hfails)).1]
  · rw [perform_of_notMem (by exact hfails)]
    have hget : ∀ c, ((m.record .prune).serve .prune).state.containers.get? id = some c ↔
        m.containers.get? id = some c ∧ c.info.state ≠ .exited := by
      intro c
      have hpruned : ((m.record .prune).serve .prune).state.containers.get? id = _ := get?_pruned
      rw [hpruned, containers_record, Option.filter_eq_some_iff, decide_eq_true_iff]
    constructor
    · rintro ⟨c, hc, hname, hstate⟩
      exact ⟨c, ((hget c).1 hc).1, hname, hstate⟩
    · rintro ⟨c, hc, hname, hstate⟩
      refine ⟨c, (hget c).2 ⟨hc, ?_⟩, hname, hstate⟩
      rw [hstate]
      nofun

section Tend

variable (h : c = .inspect other ∨ c = .restart other ∨ c = .stop other)

include h

/-- To look at a container, to restart it or to stop it leaves the others alone. -/
theorem get?_tend_of_ne (hid : id ≠ other) :
    (m.perform c).state.containers.get? id = m.containers.get? id := by
  have hbecomes := becomes_perform c m
  generalize (m.perform c).state = m' at hbecomes
  cases hbecomes with
  | unchanged => rfl
  | started => rcases h with h | h | h <;> cases h
  | moved c moved state hc =>
    have hsame : moved = other := by
      rcases hc with rfl | rfl | rfl <;> rcases h with h | h | h <;> cases h <;> rfl
    rw [get?_setState, hsame, if_neg hid]
    rfl
  | pruned => rcases h with h | h | h <;> cases h
  | nuked => rcases h with h | h | h <;> cases h

theorem bears_tend : Bears name id (m.perform c).state ↔ Bears name id m := by
  have hbecomes := becomes_perform c m
  generalize (m.perform c).state = m' at hbecomes
  cases hbecomes with
  | unchanged => exact Iff.rfl
  | started => rcases h with h | h | h <;> cases h
  | moved c moved state =>
    unfold Bears
    rw [get?_setState]
    split
    · constructor
      · rintro ⟨c, hc, hname⟩
        obtain ⟨c', hc', rfl⟩ := Option.map_eq_some_iff.1 hc
        exact ⟨c', hc', hname⟩
      · rintro ⟨c, hc, hname⟩
        have hthere : (m.containers.get? id).map (Stored.inState state) =
            some (c.inState state) := by rw [hc]; rfl
        exact ⟨c.inState state, hthere, hname⟩
    · exact Iff.rfl
  | pruned => rcases h with h | h | h <;> cases h
  | nuked => rcases h with h | h | h <;> cases h

end Tend

/-- A container runs no longer once it was stopped. -/
theorem runs_stop (other : String) (h : .stop ∉ m.failing) :
    Runs name id (m.perform (.stop other)).state ↔ Runs name id m ∧ other ≠ id := by
  rw [perform_of_notMem (by exact h)]
  have hget : ((m.record (.stop other)).serve (.stop other)).state.containers.get? id =
      if id = other then (m.containers.get? id).map (Stored.inState .exited)
      else m.containers.get? id := get?_setState other .exited
  unfold Runs
  rw [hget]
  split
  · next hid =>
    constructor
    · rintro ⟨c, hc, -, hstate⟩
      obtain ⟨c', -, rfl⟩ := Option.map_eq_some_iff.1 hc
      cases hstate
    · rintro ⟨-, hne⟩
      exact absurd hid.symm hne
  · next hid =>
    constructor
    · intro hruns
      exact ⟨hruns, Ne.symm hid⟩
    · rintro ⟨hruns, -⟩
      exact hruns

section Start

variable {descriptor : Descriptor}

theorem perform_start (h : .start ∉ m.failing) :
    (m.perform (.start descriptor)).state =
        ((m.record (.start descriptor)).start descriptor).state ∧
      (m.perform (.start descriptor)).answer =
        .ok { id := idOf m.started, name := descriptor.name, descriptor } := by
  rw [perform_of_notMem (by exact h)]
  exact ⟨rfl, rfl⟩

/-- What is there after a start: the new container, and those of other names. -/
theorem get?_perform_start (hcounted : Counted m) (h : .start ∉ m.failing) (c : Stored) :
    (m.perform (.start descriptor)).state.containers.get? id = some c ↔
      id = idOf m.started ∧
          c = ⟨⟨idOf m.started, descriptor.name, descriptor.image, .running⟩, descriptor⟩ ∨
        m.containers.get? id = some c ∧ c.info.name ≠ descriptor.name := by
  rw [(perform_start h).1]
  by_cases hnew : id = idOf m.started
  · subst hnew
    have hself : ((m.record (.start descriptor)).start descriptor).state.containers.get?
        (idOf m.started) = _ := get?_start_self descriptor
    rw [hself, hcounted.get?_next]
    constructor
    · intro hc
      exact .inl ⟨rfl, (Option.some.inj hc).symm⟩
    · rintro (⟨-, rfl⟩ | ⟨hnone, -⟩)
      · rfl
      · cases hnone
  · rw [get?_start_of_ne (m := m.record _) descriptor hnew, containers_record,
      Option.filter_eq_some_iff, bne_iff_ne]
    constructor
    · intro hold
      exact .inr hold
    · rintro (⟨hid, -⟩ | hold)
      · exact absurd hid hnew
      · exact hold

theorem bears_start (hcounted : Counted m) (h : .start ∉ m.failing) :
    Bears name id (m.perform (.start descriptor)).state ↔
      if name = descriptor.name then id = idOf m.started else Bears name id m := by
  unfold Bears
  simp only [get?_perform_start hcounted h]
  split
  · next hname =>
    subst hname
    constructor
    · rintro ⟨c, ⟨hid, -⟩ | ⟨-, hother⟩, hname⟩
      · exact hid
      · exact absurd hname hother
    · intro hid
      exact ⟨_, .inl ⟨hid, rfl⟩, rfl⟩
  · next hname =>
    constructor
    · rintro ⟨c, ⟨-, rfl⟩ | ⟨hc, -⟩, rfl⟩
      · exact absurd rfl hname
      · exact ⟨c, hc, rfl⟩
    · rintro ⟨c, hc, rfl⟩
      exact ⟨c, .inr ⟨hc, hname⟩, rfl⟩

/-- What is started runs, alone under its name. -/
theorem runs_start (hcounted : Counted m) (h : .start ∉ m.failing) :
    Runs name id (m.perform (.start descriptor)).state ↔
      if name = descriptor.name then id = idOf m.started else Runs name id m := by
  unfold Runs
  simp only [get?_perform_start hcounted h]
  split
  · next hname =>
    subst hname
    constructor
    · rintro ⟨c, ⟨hid, -⟩ | ⟨-, hother⟩, hname, -⟩
      · exact hid
      · exact absurd hname hother
    · intro hid
      exact ⟨_, .inl ⟨hid, rfl⟩, rfl, rfl⟩
  · next hname =>
    constructor
    · rintro ⟨c, ⟨-, rfl⟩ | ⟨hc, -⟩, rfl, hstate⟩
      · exact absurd rfl hname
      · exact ⟨c, hc, rfl, hstate⟩
    · rintro ⟨c, hc, rfl, hstate⟩
      exact ⟨c, .inr ⟨hc, hname⟩, rfl, hstate⟩

end Start

end Container.Memory
end Caretaker
