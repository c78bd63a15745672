import Caretaker.Proofs.Revive

/-!
# Tending the containers of the roles

An operation that is no update looks at the containers in the slots of the roster, restarts them or
asks them to stop.  It makes no call about any other container.

Main statements:

- `ensures_stopAll`: the calls that ask both containers to stop.
- `ensures_roleStatuses`: the calls that look at both containers.
- `Operation.ensures_tended`: what any operation does that is no update.
-/

namespace Caretaker.Crew

open Script

section Tending

variable {roster : Roster}

/-- Whether a call tends the container of a role. -/
def TendsHandle (roster : Roster) (c : Container.Call) : Prop :=
  ∃ role handle, (roster.slot role).container = some handle ∧
    (c = .inspect handle.id ∨ c = .restart handle.id ∨ c = .stop handle.id)

/-- What is known after containers of roles were tended. -/
def Tended (s s' : Account) : Prop :=
  ∃ calls, s' = s.calling calls ∧ ∀ exchange ∈ calls, TendsHandle s.roster exchange.call

theorem Tended.refl (s : Account) : Tended s s := by
  refine ⟨[], ?_, List.forall_mem_nil _⟩
  simp [Account.calling]

theorem Revival.tends {role : Role} {count : Nat} {calls : List Exchange}
    (h : Revival (roster.slot role).container count calls) :
    ∀ exchange ∈ calls, TendsHandle roster exchange.call := by
  generalize hcontainer : (roster.slot role).container = container at h
  cases h with
  | nothing => exact List.forall_mem_nil _
  | unseen handle cause =>
    intro exchange hmem
    obtain rfl := List.mem_singleton.1 hmem
    exact ⟨role, handle, hcontainer, .inl rfl⟩
  | alive handle info =>
    intro exchange hmem
    obtain rfl := List.mem_singleton.1 hmem
    exact ⟨role, handle, hcontainer, .inl rfl⟩
  | restarted handle info answer =>
    intro exchange hmem
    rcases List.mem_cons.1 hmem with rfl | hmem
    · exact ⟨role, handle, hcontainer, .inl rfl⟩
    · obtain rfl := List.mem_singleton.1 hmem
      exact ⟨role, handle, hcontainer, .inr (.inl rfl)⟩

/-- The calls that ask the container of a slot to stop. -/
inductive Stops : Option Handle → List Exchange → Prop where
  | nothing : Stops none []
  | asked (handle : Handle) (answer : Except Container.Fault Unit) :
      Stops (some handle) [⟨.stop handle.id, answer⟩]

theorem ensures_stopLocked (role : Role) (s : Account) :
    (stopLocked role).Ensures Account.rule (fun _ s' =>
      ∃ calls, Stops (s.roster.slot role).container calls ∧ s' = s.calling calls) s := by
  unfold stopLocked
  simp only [ensures_bind, ensures_slot]
  cases (s.roster.slot role).container with
  | none =>
    refine ⟨[], .nothing, ?_⟩
    simp [Account.calling]
  | some handle =>
    simp only [ensures_bind, ensures_log, ensures_call (c := .stop _)]
    intro answer
    have hcalls : s.called ⟨.stop handle.id, answer⟩ = s.calling [⟨.stop handle.id, answer⟩] := rfl
    cases answer with
    | error cause => exact ⟨_, .asked handle _, hcalls⟩
    | ok => exact ⟨_, .asked handle _, hcalls⟩

/-- Both containers are asked to stop, that of the updater first. -/
theorem ensures_stopAll (settings : Settings) (s : Account) :
    (Operation.stopAll.work settings).Ensures Account.rule (fun _ s' =>
      ∃ calls calls', Stops (s.roster.slot .updater).container calls ∧
        Stops (s.roster.slot .supervisor).container calls' ∧
        s' = s.calling (calls ++ calls')) s := by
  refine ensures_map.2 ?_
  unfold stopAllLocked
  rw [ensures_bind]
  refine (ensures_stopLocked .updater s).mono Account.rule_monotone ?_
  rintro - s' ⟨calls, hupdater, rfl⟩
  refine (ensures_stopLocked .supervisor _).mono Account.rule_monotone ?_
  rintro - s' ⟨calls', hsupervisor, rfl⟩
  refine ⟨calls, calls', hupdater, hsupervisor, ?_⟩
  simp [Account.calling]

theorem Stops.tends {role : Role} {calls : List Exchange}
    (h : Stops (roster.slot role).container calls) :
    ∀ exchange ∈ calls, TendsHandle roster exchange.call := by
  generalize hcontainer : (roster.slot role).container = container at h
  cases h with
  | nothing => exact List.forall_mem_nil _
  | asked handle answer =>
    intro exchange hmem
    obtain rfl := List.mem_singleton.1 hmem
    exact ⟨role, handle, hcontainer, .inr (.inr rfl)⟩

/-- The calls that look at the container of a slot. -/
inductive Looks : Option Handle → List Exchange → Prop where
  | nothing : Looks none []
  | asked (handle : Handle) (answer : Except Container.Fault ContainerInfo) :
      Looks (some handle) [⟨.inspect handle.id, answer⟩]

theorem ensures_statusLocked (role : Role) (s : Account) :
    (statusLocked role).Ensures Account.rule (fun _ s' =>
      ∃ calls, Looks (s.roster.slot role).container calls ∧ s' = s.calling calls) s := by
  unfold statusLocked
  simp only [ensures_bind, ensures_slot]
  cases (s.roster.slot role).container with
  | none =>
    refine ⟨[], .nothing, ?_⟩
    simp [Account.calling]
  | some handle =>
    simp only [ensures_bind, ensures_call (c := .inspect _)]
    intro answer
    have hcalls :
        s.called ⟨.inspect handle.id, answer⟩ = s.calling [⟨.inspect handle.id, answer⟩] := rfl
    cases answer with
    | error cause => exact ⟨_, .asked handle _, hcalls⟩
    | ok info => exact ⟨_, .asked handle _, hcalls⟩

/-- For the status of the roles both containers are looked at, that of the updater first. -/
theorem ensures_roleStatuses (settings : Settings) (s : Account) :
    (Operation.roleStatuses.work settings).Ensures Account.rule (fun _ s' =>
      ∃ calls calls', Looks (s.roster.slot .updater).container calls ∧
        Looks (s.roster.slot .supervisor).container calls' ∧
        s' = s.calling (calls ++ calls')) s := by
  refine ensures_map.2 ?_
  simp only [statusesLocked, Role.all, List.mapM_cons, List.mapM_nil, ensures_bind]
  refine (ensures_statusLocked .updater s).mono Account.rule_monotone ?_
  rintro status s' ⟨calls, hupdater, rfl⟩
  rw [ensures_bind, ensures_bind]
  refine (ensures_statusLocked .supervisor _).mono Account.rule_monotone ?_
  rintro status' s'' ⟨calls', hsupervisor, rfl⟩
  refine ⟨calls, calls', hupdater, hsupervisor, ?_⟩
  simp [Account.calling]

theorem Looks.tends {role : Role} {calls : List Exchange}
    (h : Looks (roster.slot role).container calls) :
    ∀ exchange ∈ calls, TendsHandle roster exchange.call := by
  generalize hcontainer : (roster.slot role).container = container at h
  cases h with
  | nothing => exact List.forall_mem_nil _
  | asked handle answer =>
    intro exchange hmem
    obtain rfl := List.mem_singleton.1 hmem
    exact ⟨role, handle, hcontainer, .inl rfl⟩

/-- An operation that is no update tends the containers of the roles, and does nothing else. -/
theorem Operation.ensures_tended (settings : Settings) {op : Operation} (h : op.isUpdate = false)
    (s : Account) :
    (op.work settings).Ensures Account.rule (fun _ s' => Tended s s') s := by
  cases op with
  | replace => cases h
  | replaceIfChanged => cases h
  | apply => cases h
  | keepAlive includeUpdater =>
    refine (ensures_keepAlive settings includeUpdater).mono Account.rule_monotone ?_
    rintro - s' ⟨count, calls, -, hpass, rfl⟩
    refine ⟨calls, rfl, ?_⟩
    cases hpass with
    | supervisor hrevival => exact hrevival.tends
    | both hrevival hrevival' => exact List.forall_mem_append.2 ⟨hrevival.tends, hrevival'.tends⟩
  | stopAll =>
    refine (ensures_stopAll settings s).mono Account.rule_monotone ?_
    rintro - s' ⟨calls, calls', hupdater, hsupervisor, rfl⟩
    exact ⟨_, rfl, List.forall_mem_append.2 ⟨hupdater.tends, hsupervisor.tends⟩⟩
  | roleStatuses =>
    refine (ensures_roleStatuses settings s).mono Account.rule_monotone ?_
    rintro - s' ⟨calls, calls', hupdater, hsupervisor, rfl⟩
    exact ⟨_, rfl, List.forall_mem_append.2 ⟨hupdater.tends, hsupervisor.tends⟩⟩
  | snapshot => exact ensures_map.2 (.refl s)

end Tending

end Caretaker.Crew
