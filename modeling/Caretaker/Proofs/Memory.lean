import Caretaker.Container.Memory
import Caretaker.Proofs.Digits

/-!
# What becomes of containers in memory

An id is given to one container and never again.  So whoever knows an id can follow what becomes of
its container: calls about other ids and other names leave it alone, and a prune removes it just if
it exited.

Main statements:

- `becomes_perform`: what memory becomes by a call.
- `idOf_injective`, `perform_evolves`: no id is given twice.
- `owned_of_start`, `Owned.evolves`: the id of a container that was started belongs to its name.
- `get?_perform`: what a call about other containers does to a container.
-/

namespace Caretaker.Container

/-- A container that is put into a state. -/
def Stored.inState (state : ContainerState) (c : Stored) : Stored :=
  { c with info := { c.info with state } }

namespace Memory

variable {m m' m'' : Memory} {id : String} {c : Call}

@[simp] theorem containers_record (c : Call) : (m.record c).containers = m.containers := rfl

/-! ## What memory becomes by a call -/

/-- Memory without the containers that exited. -/
def pruned (m : Memory) : Memory :=
  { m with containers := m.containers.filter fun _ c => c.info.state ≠ .exited }

/-- What memory becomes by a call: the call is remembered, and at most one thing happens. -/
inductive Becomes (m : Memory) : Call → Memory → Prop where
  | unchanged (c : Call) (hprune : c = .prune → .prune ∈ m.failing) : Becomes m c (m.record c)
  | started (descriptor : Descriptor) :
      Becomes m (.start descriptor) ((m.record (.start descriptor)).start descriptor).state
  | moved (c : Call) (id : String) (state : ContainerState)
      (hc : c = .restart id ∨ c = .stop id ∨ c = .terminate id) :
      Becomes m c ((m.record c).setState id state)
  | pruned (hprune : .prune ∉ m.failing) : Becomes m .prune (m.record .prune).pruned
  | nuked : Becomes m .nuke { m.record .nuke with containers := ∅ }

theorem becomes_perform (c : Call) (m : Memory) : Becomes m c (m.perform c).state := by
  unfold perform
  dsimp only
  split
  · next hfails =>
    refine .unchanged c ?_
    rintro rfl
    exact hfails
  · next hfails =>
    cases c with
    | start descriptor => exact .started descriptor
    | restart id =>
      -- The call of a container that is not there is remembered like any other.
      simp only [serve]
      split
      · exact .unchanged _ nofun
      · exact .moved _ id .running (.inl rfl)
    | stop id => exact .moved _ id .exited (.inr (.inl rfl))
    | terminate id =>
      simp only [serve]
      split
      · exact .unchanged _ nofun
      · exact .moved _ id .exited (.inr (.inr rfl))
    | prune => exact .pruned hfails
    | inspect id =>
      simp only [serve]
      split
      · exact .unchanged _ nofun
      · exact .unchanged _ nofun
    | nuke => exact .nuked
    | _ => exact .unchanged _ nofun

/-- No call changes which operations fail. -/
@[simp] theorem failing_perform (c : Call) (m : Memory) :
    (m.perform c).state.failing = m.failing := by
  have h := becomes_perform c m
  generalize (m.perform c).state = m' at h
  cases h <;> rfl

/-! ## Answers -/

theorem perform_of_mem (h : c.operation ∈ m.failing) :
    m.perform c = { answer := .error (toldToFail c.operation), state := m.record c } := by
  unfold perform
  exact if_pos h

theorem perform_of_notMem (h : c.operation ∉ m.failing) : m.perform c = (m.record c).serve c := by
  unfold perform
  exact if_neg h

/-- The wait for an exit fails just if it was told to. -/
theorem awaitExit_ok_iff :
    (m.perform (.awaitExit id)).answer = .ok () ↔ .awaitExit ∉ m.failing := by
  unfold perform
  dsimp only
  split
  · next hfails =>
    constructor
    · intro h
      cases h
    · intro h
      exact absurd hfails h
  · next hsucceeds => exact ⟨fun _ => hsucceeds, fun _ => rfl⟩

theorem answer_inspect (h : .inspect ∉ m.failing) :
    (m.perform (.inspect id)).answer =
      match m.containers.get? id with
      | none => .error (.notFound id)
      | some c => .ok c.info := by
  rw [perform_of_notMem h]
  show (match m.containers.get? id with | none => _ | some c => _ : Reply _ _).answer = _
  split <;> rfl

/-! ## The container of an id -/

theorem get?_setState (other : String) (state : ContainerState) :
    (m.setState other state).containers.get? id =
      if id = other then (m.containers.get? id).map (Stored.inState state)
      else m.containers.get? id :=
  Dictionary.get?_modify other id _ m.containers

theorem get?_start_self (descriptor : Descriptor) :
    (m.start descriptor).state.containers.get? (idOf m.started) =
      some { info := ⟨idOf m.started, descriptor.name, descriptor.image, .running⟩, descriptor } :=
  Dictionary.get?_insert_self _ _ _

theorem get?_start_of_ne (descriptor : Descriptor) (h : id ≠ idOf m.started) :
    (m.start descriptor).state.containers.get? id =
      (m.containers.get? id).filter (·.info.name != descriptor.name) := by
  show ((m.withoutName descriptor.name).insert (idOf m.started) _).get? id = _
  rw [Dictionary.get?_insert_of_ne _ _ h]
  exact Dictionary.get?_filter _ _ _

theorem get?_pruned :
    m.pruned.containers.get? id = (m.containers.get? id).filter (·.info.state ≠ .exited) :=
  Dictionary.get?_filter _ _ _

/-- To look at a container changes none. -/
theorem containers_inspect (id : String) (m : Memory) :
    (m.perform (.inspect id)).state.containers = m.containers := by
  have h := becomes_perform (.inspect id) m
  generalize (m.perform (.inspect id)).state = m' at h
  cases h with
  | unchanged => rfl
  | moved _ _ _ hc => rcases hc with hc | hc | hc <;> cases hc

theorem get?_restart (other : String) (h : .restart ∉ m.failing) :
    (m.perform (.restart other)).state.containers.get? id =
      if id = other then (m.containers.get? id).map (Stored.inState .running)
      else m.containers.get? id := by
  rw [perform_of_notMem h]
  simp only [serve, containers_record]
  split
  · next hnone =>
    by_cases hid : id = other
    · rw [if_pos hid, hid, hnone]
      exact hnone
    · rw [if_neg hid]
      rfl
  · exact get?_setState other .running

/-! ## Ids are never given again -/

theorem idOf_injective : Function.Injective idOf := by
  intro m n h
  have hdigits : Text.paddedDigits 16 12 m = Text.paddedDigits 16 12 n := by
    have hlists := congrArg String.toList h
    simpa [idOf] using hlists
  exact Text.paddedDigits_injective (by decide) (by decide) hdigits

/-- What memory can come to: an id that is gone stays gone, and one that is still there belongs to a
container of the same name. -/
structure Evolves (m m' : Memory) : Prop where
  started : m.started ≤ m'.started
  containers : ∀ n < m.started, ∀ c', m'.containers.get? (idOf n) = some c' →
    ∃ c, m.containers.get? (idOf n) = some c ∧ c.info.name = c'.info.name

theorem Evolves.refl (m : Memory) : Evolves m m := ⟨Nat.le_refl _, fun _ _ c hc => ⟨c, hc, rfl⟩⟩

theorem Evolves.trans (h : Evolves m m') (h' : Evolves m' m'') : Evolves m m'' := by
  refine ⟨Nat.le_trans h.started h'.started, fun n hn c'' hc'' => ?_⟩
  obtain ⟨c', hc', hname'⟩ := h'.containers n (Nat.lt_of_lt_of_le hn h.started) c'' hc''
  obtain ⟨c, hc, hname⟩ := h.containers n hn c' hc'
  exact ⟨c, hc, hname.trans hname'⟩

theorem setState_evolves (id : String) (state : ContainerState) (m : Memory) :
    Evolves m (m.setState id state) := by
  refine ⟨Nat.le_refl _, fun n _ c' hc' => ?_⟩
  rw [get?_setState] at hc'
  split at hc'
  · obtain ⟨c, hc, rfl⟩ := Option.map_eq_some_iff.1 hc'
    exact ⟨c, hc, rfl⟩
  · exact ⟨c', hc', rfl⟩

/-- What is started gets an id that was not given before. -/
theorem start_evolves (descriptor : Descriptor) (m : Memory) :
    Evolves m (m.start descriptor).state := by
  refine ⟨Nat.le_succ m.started, fun n hn c' hc' => ?_⟩
  have hid : idOf n ≠ idOf m.started := by
    intro heq
    have hn' := idOf_injective heq
    omega
  rw [get?_start_of_ne descriptor hid] at hc'
  exact ⟨c', (Option.filter_eq_some_iff.1 hc').1, rfl⟩

/-- Whatever is called, no id is given again. -/
theorem perform_evolves (c : Call) (m : Memory) : Evolves m (m.perform c).state := by
  have h := becomes_perform c m
  generalize (m.perform c).state = m' at h
  have hrecord : ∀ c, Evolves m (m.record c) := by
    intro c
    exact ⟨Nat.le_refl _, fun _ _ c' hc' => ⟨c', hc', rfl⟩⟩
  cases h with
  | unchanged c => exact hrecord c
  | started descriptor => exact (hrecord _).trans (start_evolves descriptor _)
  | moved c id state => exact (hrecord c).trans (setState_evolves id state _)
  | pruned =>
    refine ⟨Nat.le_refl _, fun n _ c' hc' => ?_⟩
    rw [get?_pruned] at hc'
    exact ⟨c', (Option.filter_eq_some_iff.1 hc').1, rfl⟩
  | nuked =>
    refine ⟨Nat.le_refl _, fun n _ c' hc' => ?_⟩
    cases hc'

/-! ## Changes from outside -/

/-- What may happen to memory beside the calls of the crew: operations begin to fail or succeed
again, a container is found in another state, calls are forgotten, and others call. -/
inductive Meddles (m : Memory) : Memory → Prop where
  | fails (operation : Operation) : Meddles m (m.fail operation)
  | recovers (operation : Operation) : Meddles m (m.recover operation)
  | finds (id : String) (state : ContainerState) : Meddles m (m.setState id state)
  | forgets : Meddles m m.clearCalls
  | calls (c : Call) : Meddles m (m.perform c).state

theorem Meddles.evolves (h : Meddles m m') : Evolves m m' := by
  cases h with
  | fails operation =>
    unfold fail
    split
    · exact .refl m
    · exact ⟨Nat.le_refl _, fun _ _ c hc => ⟨c, hc, rfl⟩⟩
  | recovers => exact ⟨Nat.le_refl _, fun _ _ c hc => ⟨c, hc, rfl⟩⟩
  | finds id state => exact setState_evolves id state m
  | forgets => exact ⟨Nat.le_refl _, fun _ _ c hc => ⟨c, hc, rfl⟩⟩
  | calls c => exact perform_evolves c m

/-! ## Ids that belong to a name -/

/-- Whether an id was given to a container of a name, so that no other container has it. -/
def Owned (name id : String) (m : Memory) : Prop :=
  ∃ n < m.started, id = idOf n ∧
    ∀ c, m.containers.get? id = some c → c.info.name = name

theorem Owned.evolves {name : String} (h : Owned name id m) (hevolves : Evolves m m') :
    Owned name id m' := by
  obtain ⟨n, hn, rfl, hname⟩ := h
  refine ⟨n, Nat.lt_of_lt_of_le hn hevolves.started, rfl, fun c' hc' => ?_⟩
  obtain ⟨c, hc, hsame⟩ := hevolves.containers n hn c' hc'
  rw [← hsame]
  exact hname c hc

theorem Owned.name_eq {name : String} {stored : Stored} (h : Owned name id m)
    (hstored : m.containers.get? id = some stored) : stored.info.name = name := by
  obtain ⟨-, -, -, hname⟩ := h
  exact hname stored hstored

/-- An id that belongs to a name is not given next. -/
theorem Owned.ne_idOf {name : String} (h : Owned name id m) : id ≠ idOf m.started := by
  obtain ⟨n, hn, rfl, -⟩ := h
  intro heq
  have hn' := idOf_injective heq
  omega

/-- The handle of a container that was started belongs to its name. -/
theorem owned_of_start {descriptor : Descriptor} {handle : Handle}
    (h : (m.perform (.start descriptor)).answer = .ok handle) :
    Owned descriptor.name handle.id (m.perform (.start descriptor)).state := by
  unfold perform at h ⊢
  dsimp only at h ⊢
  split at h
  · cases h
  · next hsucceeds =>
    cases h
    rw [if_neg hsucceeds]
    refine ⟨m.started, Nat.lt_succ_self _, rfl, fun c hc => ?_⟩
    have hstarted := get?_start_self (m := m.record (.start descriptor)) descriptor
    have hc' := Option.some.inj (hstarted.symm.trans hc)
    rw [← hc']

/-! ## Calls about other containers -/

/-- Whether a call is about other containers than the one with an id and a name, or about no single
one. -/
def Spares (id name : String) : Call → Prop
  | .restart other | .stop other | .terminate other => other ≠ id
  | .start descriptor => descriptor.name ≠ name
  | .nuke => False
  | .list | .awaitExit _ | .awaitStart _ | .prune | .awaitPrune _ | .ensureImage _ _
  | .inspect _ => True

/-- A call about other containers leaves a container as it is, unless it removes all that exited. -/
theorem get?_perform {name : String} {stored : Stored} (howned : Owned name id m)
    (hspares : Spares id name c) (hstored : m.containers.get? id = some stored) :
    (m.perform c).state.containers.get? id =
      if c = .prune ∧ .prune ∉ m.failing ∧ stored.info.state = .exited then none
      else some stored := by
  have hid : id ≠ idOf m.started := howned.ne_idOf
  have hname : stored.info.name = name := howned.name_eq hstored
  have h := becomes_perform c m
  generalize (m.perform c).state = m' at h
  cases h with
  | unchanged c hprune =>
    rw [if_neg]
    · exact hstored
    · rintro ⟨hc, hsucceeds, -⟩
      exact hsucceeds (hprune hc)
  | started descriptor =>
    have hother : stored.info.name ≠ descriptor.name := by
      rw [hname]
      exact Ne.symm hspares
    rw [get?_start_of_ne (m := m.record _) descriptor hid]
    show (m.containers.get? id).filter _ = _
    simp [hstored, Option.filter, hother]
  | moved c other state hc =>
    -- A call that moves a container to a state names it.
    have hother : id ≠ other := by
      rcases hc with rfl | rfl | rfl <;> exact Ne.symm hspares
    have hprune : c ≠ .prune := by
      rcases hc with rfl | rfl | rfl <;> nofun
    rw [get?_setState, if_neg hother, if_neg fun h => hprune h.1]
    exact hstored
  | pruned hprune =>
    rw [get?_pruned]
    show (m.containers.get? id).filter _ = _
    by_cases hexited : stored.info.state = .exited <;>
      simp [hstored, Option.filter, hprune, hexited]
  | nuked => exact hspares.elim

end Memory
end Caretaker.Container
