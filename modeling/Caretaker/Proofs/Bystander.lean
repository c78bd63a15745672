import Caretaker.Proofs.Alone
import Caretaker.Proofs.Revive

/-!
# What an update of one role does to the other

An update of one role makes its calls about the container of that role, but for one: a prune removes
every container that exited.  So the container of the other role is left alone unless it exited and
waits to be restarted; then it goes with the old container of the role that is updated.

Main statements:

- `Ends.spares`, `Ends.prune_mem_iff`: the calls of a replace, as they concern other containers.
- `run_giving`: what becomes of the other slot and its container by an update.
- `run_keepAlive`: what becomes of containers that exited by a pass of restarts.
-/

namespace Caretaker.Crew

open Container (Backend Memory Stored)
open Container.Memory (Evolves Meddles Owned Spares)
open Script

/-! ## The calls of a replace -/

section Calls

variable {settings : Settings} {role : Role} {refs : ImageRefs} {slot slot' : Slot}
  {container : Option Handle} {calls removal filling : List Exchange} {result : Replaced}
  {id name : String}

/-- The container that is removed is the only one that is told to go. -/
theorem Removes.spares (h : Removes container removal)
    (hother : ∀ old, container = some old → old.id ≠ id)
    (hfilling : ∀ exchange ∈ filling, Spares id name exchange.call) :
    ∀ exchange ∈ removal ++ filling, Spares id name exchange.call := by
  refine List.forall_mem_append.2 ⟨?_, hfilling⟩
  cases h with
  | nothing =>
    intro exchange hmem
    cases hmem
  | removed old signalled =>
    have hold : old.id ≠ id := hother old rfl
    simp [Spares, hold]

/-- The calls of a replace are about no container but those of its role. -/
theorem Ends.spares (h : Ends settings role refs slot calls result slot')
    (hother : ∀ old, slot.container = some old → old.id ≠ id) (hname : role.containerName ≠ name) :
    ∀ exchange ∈ calls, Spares id name exchange.call := by
  cases h with
  | exitUnconfirmed old signalled cause hold =>
    have hne : old.id ≠ id := hother old hold
    simp [Spares, hne]
  | pruneFailed old signalled cause hold =>
    have hne : old.id ≠ id := hother old hold
    simp [Spares, hne]
  | removalUnconfirmed old signalled cause hold =>
    have hne : old.id ≠ id := hother old hold
    simp [Spares, hne]
  | imageMissing removal cause hremoval => exact hremoval.spares hother (by simp [Spares])
  | startFailed removal cause hremoval => exact hremoval.spares hother (by simp [Spares, hname])
  | startUnconfirmed removal handle cause hremoval =>
    exact hremoval.spares hother (by simp [Spares, hname])
  | replaced removal handle hremoval => exact hremoval.spares hother (by simp [Spares, hname])

/-- A container is removed by a prune, once its exit was confirmed. -/
theorem Removes.prune_mem_iff (h : Removes container removal) {confirmed : Prop}
    (hfilling : .prune ∉ filling.map (·.call))
    (hexit : ∀ id answer, ⟨.awaitExit id, answer⟩ ∈ removal ++ filling →
      (answer = .ok () ↔ confirmed)) :
    .prune ∈ (removal ++ filling).map (·.call) ↔ container.isSome = true ∧ confirmed := by
  rw [List.map_append, List.mem_append]
  cases h with
  | nothing =>
    constructor
    · rintro (hmem | hmem)
      · cases hmem
      · exact absurd hmem hfilling
    · rintro ⟨hsome, -⟩
      cases hsome
  | removed old signalled =>
    have hconfirmed : confirmed := (hexit old.id (.ok ()) (by simp)).1 rfl
    simp [hconfirmed]

/-- A replace comes to a prune just if there is a container to remove and its exit is confirmed. -/
theorem Ends.prune_mem_iff (h : Ends settings role refs slot calls result slot')
    {confirmed : Prop}
    (hexit : ∀ id answer, ⟨.awaitExit id, answer⟩ ∈ calls → (answer = .ok () ↔ confirmed)) :
    .prune ∈ calls.map (·.call) ↔ slot.container.isSome = true ∧ confirmed := by
  cases h with
  | exitUnconfirmed old signalled cause hold =>
    -- The exit is not confirmed, and the replace ends there.
    have hunconfirmed : ¬ confirmed := by
      intro hconfirmed
      have hanswer := (hexit old.id (.error cause) (by simp)).2 hconfirmed
      cases hanswer
    simp [hunconfirmed]
  | pruneFailed old signalled cause hold =>
    have hconfirmed : confirmed := (hexit old.id (.ok ()) (by simp)).1 rfl
    simp [hconfirmed, hold]
  | removalUnconfirmed old signalled cause hold =>
    have hconfirmed : confirmed := (hexit old.id (.ok ()) (by simp)).1 rfl
    simp [hconfirmed, hold]
  | imageMissing removal cause hremoval => exact hremoval.prune_mem_iff (by simp) hexit
  | startFailed removal cause hremoval => exact hremoval.prune_mem_iff (by simp) hexit
  | startUnconfirmed removal handle cause hremoval =>
    exact hremoval.prune_mem_iff (by simp) hexit
  | replaced removal handle hremoval => exact hremoval.prune_mem_iff (by simp) hexit

end Calls

/-! ## Updates of one role -/

/-- An update of one role: it is given the image in any case, or if that is not the recorded one. -/
def Operation.giving (role : Role) (refs : ImageRefs) : (forced : Bool) → Operation
  | true => .replace role refs
  | false => .replaceIfChanged role refs

/-- Whether an update of a role prunes: the role is given the image, and has a container before it
whose exit is confirmed, and the prune does not fail. -/
def World.Prunes (role : Role) (refs : ImageRefs) (forced : Bool) (w : World Memory) : Prop :=
  (forced = true ∨ (w.roster.slot role).image ≠ some (refs.of role)) ∧
    (w.roster.slot role).container.isSome = true ∧
    .awaitExit ∉ w.backend.failing ∧ .prune ∉ w.backend.failing

instance (role : Role) (refs : ImageRefs) (forced : Bool) (w : World Memory) :
    Decidable (w.Prunes role refs forced) :=
  inferInstanceAs (Decidable (_ ∧ _ ∧ _ ∧ _))

/-- A world in which no call fails any more. -/
def World.mended (w : World Memory) : World Memory :=
  { w with backend := { w.backend with failing := [] } }

section Giving

variable {settings : Settings} {role other : Role} {refs : ImageRefs} {forced : Bool}
  {w : World Memory} {handle : Handle} {stored : Stored}

theorem ensures_giving (settings : Settings) (role : Role) (refs : ImageRefs) (forced : Bool)
    (s : Account) :
    ((Operation.giving role refs forced).work settings).Ensures Account.rule (fun _ s' =>
      ∃ result, Took settings [⟨role, refs, forced, result⟩] s s') s := by
  cases forced with
  | true =>
    refine ensures_map.2 (ensures_replaceLocked.mono Account.rule_monotone ?_)
    rintro result s' ⟨slot, calls, hends, rfl⟩
    exact ⟨result, .ofEnds (.inl rfl) hends⟩
  | false =>
    refine ensures_map.2 (ensures_compareLocked.mono Account.rule_monotone ?_)
    intro result s' htook
    exact ⟨result, htook⟩

/-- A turn comes to a prune just if the role is given the image, and has a container before it whose
exit is confirmed. -/
theorem Turn.Changes.prune_mem_iff {turn : Turn} {slot slot' : Slot} {calls : List Exchange}
    (h : turn.Changes settings slot calls slot') {confirmed : Prop}
    (hexit : ∀ id answer, ⟨.awaitExit id, answer⟩ ∈ calls → (answer = .ok () ↔ confirmed)) :
    .prune ∈ calls.map (·.call) ↔
      (turn.forced = true ∨ slot.image ≠ some (turn.refs.of turn.role)) ∧
        slot.container.isSome = true ∧ confirmed := by
  cases h with
  | unchanged role refs himage =>
    constructor
    · intro hmem
      cases hmem
    · rintro ⟨hforced | hne, -⟩
      · cases hforced
      · exact absurd himage hne
  | attempted role refs forced hneeded hends =>
    rw [hends.prune_mem_iff hexit]
    exact ⟨fun h => ⟨hneeded, h⟩, fun h => h.2⟩

theorem Turn.Changes.spares {turn : Turn} {slot slot' : Slot} {calls : List Exchange}
    (h : turn.Changes settings slot calls slot') {id name : String}
    (hother : ∀ old, slot.container = some old → old.id ≠ id)
    (hname : turn.role.containerName ≠ name) :
    ∀ exchange ∈ calls, Spares id name exchange.call := by
  cases h with
  | unchanged =>
    intro exchange hmem
    cases hmem
  | attempted role refs forced hneeded hends => exact hends.spares hother hname

/-- An update of one role leaves the other slot alone, and the other container unless it exited and
the update prunes. -/
theorem run_giving (howned : HandlesOwned w.roster w.backend) (hother : other ≠ role)
    (hhandle : (w.roster.slot other).container = some handle)
    (hstored : w.backend.containers.get? handle.id = some stored) {w' : World Memory}
    (hw' : (((Operation.giving role refs forced).transaction settings).run w).2 = w') :
    w'.roster.slot other = w.roster.slot other ∧
      w'.backend.containers.get? handle.id =
        if w.Prunes role refs forced ∧ stored.info.state = .exited then none else some stored := by
  rw [Operation.run_transaction] at hw'
  obtain ⟨s', hfits, turned, calls, htaken, hcalls, -⟩ :=
    Transaction.ensures_run_undisturbed (ensures_giving settings role refs forced w.account)
  rw [hw'] at hfits
  obtain ⟨slot', hturn, hroster⟩ := htaken.of_single
  have hperformed : Performed undisturbed w.backend calls w'.backend := by
    have hcalls' : s'.calls = calls := hcalls
    rw [← hcalls']
    exact hfits.calls
  constructor
  · rw [hfits.roster, hroster]
    exact Roster.slot_put_ne w.roster slot' hother
  · -- The container has the name of its own role, so the role that is updated has another one.
    have hmine : Owned other.containerName handle.id w.backend := howned other handle hhandle
    have hname : role.containerName ≠ other.containerName :=
      fun heq => hother (Role.containerName_injective heq).symm
    have hid : ∀ old, (w.roster.slot role).container = some old → old.id ≠ handle.id := by
      intro old hold heq
      have hyours := howned role old hold
      rw [heq] at hyours
      exact hname ((hyours.name_eq hstored).symm.trans (hmine.name_eq hstored))
    rw [hperformed.get? hmine (hturn.spares hid hname) hstored]
    refine if_congr ?_ rfl rfl
    rw [hturn.prune_mem_iff fun id answer hmem => hperformed.awaitExit_ok hmem]
    constructor
    · rintro ⟨⟨hneeded, hcontainer, hexit⟩, hprune, hexited⟩
      exact ⟨⟨hneeded, hcontainer, hexit, hprune⟩, hexited⟩
    · rintro ⟨⟨hneeded, hcontainer, hexit, hprune⟩, hexited⟩
      exact ⟨⟨hneeded, hcontainer, hexit⟩, hprune, hexited⟩

/-- In a world where no call fails, a pass over both roles restarts every container of theirs that
exited. -/
theorem run_keepAlive (hfailing : w.backend.failing = [])
    (hhandle : (w.roster.slot other).container = some handle) {w' : World Memory}
    (hw' : (((Operation.keepAlive true).transaction settings).run w).2 = w') :
    w'.backend.containers.get? handle.id =
      (w.backend.containers.get? handle.id).map revived := by
  rw [Operation.run_transaction] at hw'
  obtain ⟨s', hfits, count, calls, -, hpass, rfl⟩ :=
    Transaction.ensures_run_undisturbed (w := w) (Operation.ensures_keepAlive settings true)
  rw [hw'] at hfits
  have hanswered : Answered w.backend calls w'.backend := hfits.calls.answered
  exact hpass.get? hanswered hfailing hhandle

end Giving

/-! ## An updater that exited -/

namespace Sample

open Session (Reachable)

/-- Both roles were launched. -/
def crew : Session Memory :=
  ((Session.fresh {}).conclude developmentSettings (.replace .updater (refs "sup:v1"))).conclude
    developmentSettings (.replace .supervisor (refs "sup:v1"))

/-- The updater exited, and was not restarted yet. -/
def crashed : Session Memory := crew.moved (.setState "ctr_000000000000" .exited)

theorem reachable_crashed : Reachable developmentSettings Meddles {} crashed := by
  have hidle := Session.idle_fresh ({} : Memory)
  have hupdater : Reachable developmentSettings Meddles {} _ :=
    Reachable.concluded .start hidle (.replace .updater (refs "sup:v1"))
  have hcrew : Reachable developmentSettings Meddles {} crew :=
    hupdater.concluded (hidle.conclude _ _) (.replace .supervisor (refs "sup:v1"))
  exact hcrew.moved (.finds _ _)

end Sample

/-- An update of one role leaves the slot of the other role alone.  It leaves the other container
alone as well, to be restarted if it exited; but where the update prunes, a container that exited is
removed before that. -/
theorem other_after_giving {settings : Settings} {m : Memory} {s : Session Memory}
    (h : Session.Reachable settings Meddles m s) (hfree : s.world.lock.holders = [])
    {role other : Role} (hother : other ≠ role) (refs : ImageRefs) (forced : Bool)
    {handle : Handle} (hhandle : (s.world.roster.slot other).container = some handle)
    {stored : Stored} (hstored : s.world.backend.containers.get? handle.id = some stored) :
    let w := (((Operation.giving role refs forced).transaction settings).run s.world).2
    let w' := (((Operation.keepAlive true).transaction settings).run w.mended).2
    w.roster.slot other = s.world.roster.slot other ∧
      if s.world.Prunes role refs forced ∧ stored.info.state = .exited then
        w.backend.containers.get? handle.id = none ∧ w'.backend.containers.get? handle.id = none
      else
        w.backend.containers.get? handle.id = some stored ∧
          w'.backend.containers.get? handle.id = some (revived stored) := by
  intro w w'
  have howned := owned_of_free h hfree
  have hrun : (((Operation.giving role refs forced).transaction settings).run s.world).2 = w := rfl
  have hrun' : (((Operation.keepAlive true).transaction settings).run w.mended).2 = w' := rfl
  obtain ⟨hslot, hafter⟩ := run_giving howned hother hhandle hstored hrun
  have hhandle' : (w.mended.roster.slot other).container = some handle := by
    show (w.roster.slot other).container = some handle
    rw [hslot, hhandle]
  have hrestarts : w'.backend.containers.get? handle.id =
      (w.backend.containers.get? handle.id).map revived := run_keepAlive rfl hhandle' hrun'
  refine ⟨hslot, ?_⟩
  rw [hrestarts]
  split
  · next hlost =>
    have hnone : w.backend.containers.get? handle.id = none := hafter.trans (if_pos hlost)
    rw [hnone]
    exact ⟨rfl, rfl⟩
  · next hkept =>
    have hsome : w.backend.containers.get? handle.id = some stored := hafter.trans (if_neg hkept)
    rw [hsome]
    exact ⟨rfl, rfl⟩

theorem other_after_giving_crashed :
    ∃ handle stored, (Sample.crashed.world.roster.slot .updater).container = some handle ∧
      Sample.crashed.world.backend.containers.get? handle.id = some stored ∧
      let update := Operation.giving .supervisor (Sample.refs "sup:v2") true
      let w := ((update.transaction developmentSettings).run Sample.crashed.world).2
      let w' := (((Operation.keepAlive true).transaction developmentSettings).run w.mended).2
      w.roster.slot .updater = Sample.crashed.world.roster.slot .updater ∧
        if Sample.crashed.world.Prunes .supervisor (Sample.refs "sup:v2") true ∧
            stored.info.state = .exited then
          w.backend.containers.get? handle.id = none ∧ w'.backend.containers.get? handle.id = none
        else
          w.backend.containers.get? handle.id = some stored ∧
            w'.backend.containers.get? handle.id = some (revived stored) :=
  ⟨_, _, rfl, rfl,
    other_after_giving Sample.reachable_crashed rfl (by decide) (Sample.refs "sup:v2") true rfl rfl⟩

/-- A replace of the supervisor can remove the container of the updater, which is then never
restarted, though its handle is still there. -/
theorem other_removed_crashed :
    Session.Reachable developmentSettings Meddles {} Sample.crashed ∧
      Sample.crashed.world.lock.holders = [] ∧
      ∃ handle stored, (Sample.crashed.world.roster.slot .updater).container = some handle ∧
        Sample.crashed.world.backend.containers.get? handle.id = some stored ∧
        let update := Operation.replace .supervisor (Sample.refs "sup:v2")
        let w := ((update.transaction developmentSettings).run Sample.crashed.world).2
        let restarts := ((Operation.keepAlive true).transaction developmentSettings).run w.mended
        (w.roster.slot .updater).container = some handle ∧
          w.backend.containers.get? handle.id = none ∧
          restarts.2.backend.containers.get? handle.id = none :=
  ⟨Sample.reachable_crashed, rfl, _, _, rfl, rfl, rfl, rfl, rfl⟩

end Caretaker.Crew
