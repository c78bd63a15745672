import Caretaker.Proofs.Owned

/-!
# Restarts

A pass of restarts looks at the containers of the roles, and restarts those that exited.  It sets no
slot and removes nothing.  In a memory where no call fails every container that exited runs again.

Main statements:

- `Operation.ensures_keepAlive`: the calls of a pass, and what it counts.
- `Pass.get?`: what a pass does to the containers in memory.
-/

namespace Caretaker.Crew

open Container (Backend Memory Stored)
open Script

/-! ## What a pass calls -/

/-- The calls for the container of one role, and how many restarts they count for. -/
inductive Revival : Option Handle → Nat → List Exchange → Prop where
  | nothing : Revival none 0 []
  | unseen (handle : Handle) (cause : Container.Fault) :
      Revival (some handle) 0 [⟨.inspect handle.id, .error cause⟩]
  | alive (handle : Handle) (info : ContainerInfo) (hinfo : info.state ≠ .exited) :
      Revival (some handle) 0 [⟨.inspect handle.id, .ok info⟩]
  | restarted (handle : Handle) (info : ContainerInfo) (answer : Except Container.Fault Unit)
      (hinfo : info.state = .exited) :
      Revival (some handle) 1 [⟨.inspect handle.id, .ok info⟩, ⟨.restart handle.id, answer⟩]

section Ensures

variable {s : Account}

/-- An account after more calls. -/
def Account.calling (calls : List Exchange) (s : Account) : Account :=
  { s with calls := s.calls ++ calls }

/-- The restart of one role's container calls for nothing else and sets no slot. -/
theorem ensures_reviveLocked (role : Role) :
    (reviveLocked role).Ensures Account.rule (fun count s' =>
      ∃ calls, Revival (s.roster.slot role).container count calls ∧ s' = s.calling calls) s := by
  unfold reviveLocked
  simp only [ensures_bind, ensures_slot]
  cases hcontainer : (s.roster.slot role).container with
  | none =>
    refine ⟨[], .nothing, ?_⟩
    simp [Account.calling]
  | some handle =>
    simp only [ensures_bind, ensures_call (c := .inspect _)]
    rintro (cause | info)
    · exact ⟨_, .unseen handle cause, rfl⟩
    · show Ensures _ _ (if info.state = .exited then _ else _) _
      split
      · next hexited =>
        simp only [ensures_bind, ensures_log, ensures_call (c := .restart _)]
        intro answer
        have hcalls :
            (s.called ⟨.inspect handle.id, .ok info⟩).called ⟨.restart handle.id, answer⟩ =
              s.calling [⟨.inspect handle.id, .ok info⟩, ⟨.restart handle.id, answer⟩] := by
          simp [Account.called, Account.calling]
        cases answer with
        | error cause => exact ⟨_, .restarted handle info _ hexited, hcalls⟩
        | ok => exact ⟨_, .restarted handle info _ hexited, hcalls⟩
      · next halive => exact ⟨_, .alive handle info halive, rfl⟩

/-- The calls of a pass over the containers of the roles, and how many restarts it counts. -/
inductive Pass (roster : Roster) : (includeUpdater : Bool) → Nat → List Exchange → Prop where
  | supervisor {count : Nat} {calls : List Exchange}
      (h : Revival (roster.slot .supervisor).container count calls) :
      Pass roster false count calls
  | both {count count' : Nat} {calls calls' : List Exchange}
      (h : Revival (roster.slot .supervisor).container count calls)
      (h' : Revival (roster.slot .updater).container count' calls') :
      Pass roster true (count + count') (calls ++ calls')

theorem ensures_keepAliveLocked (includeUpdater : Bool) :
    (keepAliveLocked includeUpdater).Ensures Account.rule (fun count s' =>
      ∃ calls, Pass s.roster includeUpdater count calls ∧ s' = s.calling calls) s := by
  unfold keepAliveLocked
  rw [ensures_bind]
  refine (ensures_reviveLocked .supervisor).mono Account.rule_monotone ?_
  rintro count s' ⟨calls, hrevival, rfl⟩
  cases includeUpdater with
  | false => exact ⟨calls, .supervisor hrevival, rfl⟩
  | true =>
    rw [if_pos rfl, ensures_bind]
    refine (ensures_reviveLocked .updater).mono Account.rule_monotone ?_
    rintro count' s' ⟨calls', hrevival', rfl⟩
    refine ⟨calls ++ calls', .both hrevival hrevival', ?_⟩
    simp [Account.calling]

theorem Operation.ensures_keepAlive (settings : Settings) (includeUpdater : Bool) :
    ((Operation.keepAlive includeUpdater).work settings).Ensures Account.rule (fun result s' =>
      ∃ count calls, result = .restarts count ∧ Pass s.roster includeUpdater count calls ∧
        s' = s.calling calls) s := by
  refine ensures_map.2 ((ensures_keepAliveLocked includeUpdater).mono Account.rule_monotone ?_)
  rintro count s' ⟨calls, hpass, rfl⟩
  exact ⟨count, calls, rfl, hpass, rfl⟩

end Ensures

/-! ## What a pass does in memory -/

/-- A container that is restarted if it exited. -/
def revived (c : Stored) : Stored := if c.info.state = .exited then c.inState .running else c

theorem revived_revived (c : Stored) : revived (revived c) = revived c := by
  unfold revived
  by_cases hexited : c.info.state = .exited
  · rw [if_pos hexited]
    rfl
  · rw [if_neg hexited, if_neg hexited]

theorem revived_of_exited {c : Stored} (h : c.info.state = .exited) :
    revived c = c.inState .running := if_pos h

theorem revived_of_not_exited {c : Stored} (h : c.info.state ≠ .exited) : revived c = c := if_neg h

theorem map_revived_twice (c : Option Stored) : (c.map revived).map revived = c.map revived := by
  rw [Option.map_map]
  congr 1
  funext c
  exact revived_revived c

section Revived

variable {m m' : Memory} {container : Option Handle} {count : Nat} {calls : List Exchange}

/-- Where no call fails the container of the role runs again if it exited, and no other container is
changed. -/
theorem Revival.get? (h : Revival container count calls) (hanswered : Answered m calls m')
    (hfailing : m.failing = []) (id : String) :
    m'.containers.get? id =
      if container.map (·.id) = some id then (m.containers.get? id).map revived
      else m.containers.get? id := by
  have hinspect : .inspect ∉ m.failing := by simp [hfailing]
  cases h with
  | nothing =>
    rw [hanswered]
    rfl
  | unseen handle cause =>
    obtain ⟨hanswer, rfl⟩ := hanswered
    rw [Container.Memory.answer_inspect hinspect] at hanswer
    rw [Container.Memory.containers_inspect]
    split
    · next hid =>
      -- The container that was not found is not there.
      obtain rfl := Option.some.inj hid
      split at hanswer
      · next hnone =>
        rw [hnone]
        rfl
      · cases hanswer
    · rfl
  | alive handle info hinfo =>
    obtain ⟨hanswer, rfl⟩ := hanswered
    rw [Container.Memory.answer_inspect hinspect] at hanswer
    rw [Container.Memory.containers_inspect]
    split
    · next hid =>
      obtain rfl := Option.some.inj hid
      split at hanswer
      · cases hanswer
      · next c hsome =>
        cases hanswer
        rw [hsome, Option.map_some, revived_of_not_exited hinfo]
    · rfl
  | restarted handle info answer hinfo =>
    obtain ⟨hanswer, -, rfl⟩ := hanswered
    rw [Container.Memory.answer_inspect hinspect] at hanswer
    have hrestart : .restart ∉ (m.perform (.inspect handle.id)).state.failing := by
      simp [hfailing]
    show ((m.perform (.inspect handle.id)).state.perform (.restart handle.id)).state.containers.get?
      id = _
    rw [Container.Memory.get?_restart _ hrestart, Container.Memory.containers_inspect]
    by_cases hid : id = handle.id
    · subst hid
      split at hanswer
      · cases hanswer
      · next c hsome =>
        cases hanswer
        have hsame : (some handle).map (·.id) = some handle.id := rfl
        rw [if_pos rfl, if_pos hsame, hsome, Option.map_some, Option.map_some,
          revived_of_exited hinfo]
    · have hother : (some handle).map (·.id) ≠ some id := by
        intro heq
        exact hid (Option.some.inj heq).symm
      rw [if_neg hid, if_neg hother]

/-- Where no call fails a pass over both roles restarts every container of a role that exited. -/
theorem Pass.get? {roster : Roster} (h : Pass roster true count calls)
    (hanswered : Answered m calls m') (hfailing : m.failing = []) {role : Role} {handle : Handle}
    (hhandle : (roster.slot role).container = some handle) :
    m'.containers.get? handle.id = (m.containers.get? handle.id).map revived := by
  cases h with
  | both hsupervisor hupdater =>
    obtain ⟨m₁, hfirst, hsecond⟩ := answered_append.1 hanswered
    have hfailing₁ : m₁.failing = [] := hfirst.failing.trans hfailing
    rw [hupdater.get? hsecond hfailing₁, hsupervisor.get? hfirst hfailing]
    -- Both roles might have the same container, and then it is restarted once.
    cases role with
    | supervisor =>
      rw [hhandle, Option.map_some, if_pos rfl]
      split
      · exact map_revived_twice _
      · rfl
    | updater =>
      rw [hhandle, Option.map_some, if_pos rfl]
      split
      · exact map_revived_twice _
      · rfl

end Revived

end Caretaker.Crew
