import Mathlib.Data.List.Induction
import Caretaker.Proofs.Alone
import Caretaker.Proofs.Stray

/-!
# Containers that nobody knows of

A crew on memory that nobody else touches carries out operations one after the other, and between
them calls begin to fail or to succeed again.  A container can come to run under the name of a role
without being the one in its slot.  Then nobody stops it any more, until a container of its name is
started.

Main statements:

- `Operation.run_tracked`: what one operation does to the containers of the roles.
- `adrift_iff`: exactly which operations and failures lead to such a container, and that it is just
  what is not stopped in the end.
-/

namespace Caretaker.Crew

open Container (Memory)
open Container.Memory (Runs)
open Script

/-! ## Operations -/

/-- The turns of an operation are orderly. -/
theorem Operation.yields_orderly (settings : Settings) (op : Operation) :
    (op.work settings).Yields fun result => Orderly (op.turns result) := by
  have hsingle : ∀ turn : Turn, Orderly [turn] :=
    fun turn => ⟨fun _ => rfl, List.forall_mem_nil _, trivial⟩
  cases op with
  | replace role refs =>
    exact yields_map _ fun result => hsingle ⟨role, refs, true, result⟩
  | replaceIfChanged role refs =>
    exact yields_map _ fun result => hsingle ⟨role, refs, false, result⟩
  | apply refs roles =>
    refine (yields_applyLocked settings refs roles).map fun updates hvisits => ?_
    have hrefs : ∀ point ∈ roles.map fun role => (role, refs), point.2 = refs := by
      intro point hmem
      obtain ⟨role, -, rfl⟩ := List.mem_map.1 hmem
      rfl
    exact (hvisits.orderly hrefs).1
  | _ => exact yields_map _ fun _ => trivial

/-- What an operation that runs alone does to the containers of the roles. -/
theorem Operation.run_tracked (settings : Settings) (op : Operation) {w : World Memory}
    (htracked : Tracked w.roster w.backend) {result : Result} {w' : World Memory}
    (hrun : (op.transaction settings).run w = (result, w')) :
    Tracked w'.roster w'.backend ∧ ∀ role,
      Stray role w'.roster w'.backend ↔
        (w'.roster.slot role).container = none ∧
          (Stray role w.roster w.backend ∨
            (∃ turn ∈ op.turns result, turn.role = role ∧ turn.attempted = true) ∧
              Manned role w.roster w.backend ∧ Falters w.backend) := by
  rw [run_transaction] at hrun
  cases hop : op.isUpdate with
  | true =>
    obtain ⟨s, hfits, calls, htaken, hcalls, -⟩ :=
      Transaction.ensures_run_undisturbed (ensures_work hop w.account)
    have horderly : Orderly (op.turns ((op.work settings).run w).1) :=
      (yields_orderly settings op).run _ _
    rw [hrun] at hfits htaken horderly
    have hanswered : Answered w.backend calls w'.backend := by
      have hperformed := hfits.calls
      rw [hcalls] at hperformed
      exact hperformed.answered
    rw [← hfits.roster] at htaken
    exact ⟨htaken.tracked hanswered htracked, htaken.stray horderly hanswered htracked⟩
  | false =>
    obtain ⟨s, hfits, htended⟩ :=
      Transaction.ensures_run_undisturbed (ensures_tended settings hop w.account)
    rw [hrun] at hfits
    obtain ⟨calls, rfl, hcalls⟩ := htended
    have hroster : w'.roster = w.roster := hfits.roster
    have hanswered : Answered w.backend calls w'.backend := hfits.calls.answered
    obtain ⟨htracked', hstray⟩ := htracked.tend hcalls hanswered
    rw [hroster]
    refine ⟨htracked', fun role => ?_⟩
    rw [hstray, turns_of_not_update hop]
    constructor
    · intro h
      exact ⟨h.1, .inl h⟩
    · rintro ⟨-, h | ⟨⟨turn, hmem, -⟩, -⟩⟩
      · exact h
      · cases hmem

/-! ## One operation after the other -/

/-- Something that happens to a crew whose containers are in memory: an operation runs alone, or
calls of one kind begin to fail or to succeed again. -/
inductive Deed where
  | does (op : Operation)
  | fails (operation : Container.Operation)
  | recovers (operation : Container.Operation)
deriving DecidableEq, Repr

namespace World

/-- A crew after one more deed. -/
def take (settings : Settings) (w : World Memory) : Deed → World Memory
  | .does op => ((op.transaction settings).run w).2
  | .fails operation => { w with backend := w.backend.fail operation }
  | .recovers operation => { w with backend := w.backend.recover operation }

/-- A crew after deeds, the first one first, that began with nothing. -/
def after (settings : Settings) (deeds : List Deed) : World Memory :=
  deeds.foldl (take settings) { backend := {} }

/-- Whether a container runs under the name of a role that is not the one in its slot. -/
def Adrift (role : Role) (w : World Memory) : Prop :=
  ∃ id, Runs role.containerName id w.backend ∧ (w.roster.slot role).container.map (·.id) ≠ some id

/-- Whether an operation passes over the container of a role that runs: it tries to give the role an
image while calls fail so that the container is neither stopped nor removed nor replaced. -/
def Abandons (settings : Settings) (op : Operation) (role : Role) (w : World Memory) : Prop :=
  (∃ turn ∈ op.turns ((op.transaction settings).run w).1,
      turn.role = role ∧ turn.attempted = true) ∧
    Manned role w.roster w.backend ∧ Falters w.backend

end World

/-- Whether one of the deeds passed over the container of a role, and the role got none since. -/
def Abandoned (settings : Settings) (role : Role) (deeds : List Deed) : Prop :=
  ∃ before op later, deeds = before ++ .does op :: later ∧
    (World.after settings before).Abandons settings op role ∧
    ∀ more, more <+: later →
      ((World.after settings (before ++ .does op :: more)).roster.slot role).container = none

section Deeds

variable {settings : Settings} {role : Role} {deeds : List Deed} {deed : Deed}

theorem World.after_concat :
    World.after settings (deeds ++ [deed]) = (World.after settings deeds).take settings deed := by
  simp [World.after]

/-- What one deed does to the containers of the roles. -/
theorem World.take_tracked {w : World Memory} (h : Tracked w.roster w.backend) :
    Tracked (w.take settings deed).roster (w.take settings deed).backend ∧ ∀ role,
      Stray role (w.take settings deed).roster (w.take settings deed).backend ↔
        ((w.take settings deed).roster.slot role).container = none ∧
          (Stray role w.roster w.backend ∨
            ∃ op, deed = .does op ∧ w.Abandons settings op role) := by
  have hquiet : ∀ {m'}, Tracked w.roster m' ∧
      (∀ role, Stray role w.roster m' ↔ Stray role w.roster w.backend) →
      (∀ op, deed ≠ .does op) →
      Tracked w.roster m' ∧ ∀ role, Stray role w.roster m' ↔
        (w.roster.slot role).container = none ∧
          (Stray role w.roster w.backend ∨
            ∃ op, deed = .does op ∧ w.Abandons settings op role) := by
    rintro m' ⟨htracked, hstray⟩ hdeed
    refine ⟨htracked, fun role => (hstray role).trans ?_⟩
    constructor
    · intro h
      exact ⟨h.1, .inl h⟩
    · rintro ⟨-, h | ⟨op, hop, -⟩⟩
      · exact h
      · exact absurd hop (hdeed op)
  cases deed with
  | does op =>
    obtain ⟨htracked, hstray⟩ := op.run_tracked settings h rfl
    refine ⟨htracked, fun role => (hstray role).trans ?_⟩
    refine and_congr_right fun _ => or_congr_right ?_
    constructor
    · intro habandons
      exact ⟨op, rfl, habandons⟩
    · rintro ⟨op', heq, habandons⟩
      cases heq
      exact habandons
  | fails operation =>
    refine hquiet (h.same ?_ ?_) nofun
    · show (w.backend.fail operation).containers = _
      unfold Container.Memory.fail
      split <;> rfl
    · show (w.backend.fail operation).started = _
      unfold Container.Memory.fail
      split <;> rfl
  | recovers operation => exact hquiet (h.same rfl rfl) nofun

theorem World.after_tracked (settings : Settings) (deeds : List Deed) :
    Tracked (World.after settings deeds).roster (World.after settings deeds).backend := by
  induction deeds using List.reverseRecOn with
  | nil => exact .fresh
  | append_singleton deeds deed ih =>
    rw [World.after_concat]
    exact (World.take_tracked ih).1

theorem abandoned_concat :
    Abandoned settings role (deeds ++ [deed]) ↔
      ((World.after settings (deeds ++ [deed])).roster.slot role).container = none ∧
        (Abandoned settings role deeds ∨
          ∃ op, deed = .does op ∧ (World.after settings deeds).Abandons settings op role) := by
  constructor
  · rintro ⟨before, op, later, hdeeds, habandons, hsince⟩
    have hnone := hsince later (List.prefix_refl later)
    rw [← hdeeds] at hnone
    refine ⟨hnone, ?_⟩
    rcases List.eq_nil_or_concat' later with rfl | ⟨later, last, rfl⟩
    · -- The last deed is the one that passed over the container.
      obtain ⟨rfl, heq⟩ := List.append_inj' hdeeds rfl
      exact .inr ⟨op, List.head_eq_of_cons_eq heq, habandons⟩
    · have hsplit : deeds ++ [deed] = (before ++ .does op :: later) ++ [last] := by
        rw [hdeeds, List.append_assoc, List.cons_append]
      obtain ⟨hbefore, -⟩ := List.append_inj' hsplit rfl
      refine .inl ⟨before, op, later, hbefore, habandons, fun more hmore => ?_⟩
      exact hsince more (hmore.trans (List.prefix_append later [last]))
  · rintro ⟨hnone, ⟨before, op, later, rfl, habandons, hsince⟩ | ⟨op, rfl, habandons⟩⟩
    · refine ⟨before, op, later ++ [deed], ?_, habandons, fun more hmore => ?_⟩
      · rw [List.append_assoc, List.cons_append]
      · rcases List.prefix_concat_iff.1 hmore with rfl | hmore
        · rw [List.append_assoc, List.cons_append] at hnone
          exact hnone
        · exact hsince more hmore
    · refine ⟨deeds, op, [], rfl, habandons, fun more hmore => ?_⟩
      rw [List.prefix_nil.1 hmore]
      exact hnone

/-- The container that runs without being known is one under the name of a role whose slot is
empty. -/
theorem Tracked.adrift_iff_stray {w : World Memory} (h : Tracked w.roster w.backend) :
    w.Adrift role ↔ Stray role w.roster w.backend := by
  constructor
  · rintro ⟨id, hruns, hother⟩
    cases hcontainer : (w.roster.slot role).container with
    | none => exact ⟨hcontainer, id, hruns⟩
    | some handle =>
      rw [hcontainer, h.sole role handle hcontainer id hruns.bears] at hother
      exact absurd rfl hother
  · rintro ⟨hnone, id, hruns⟩
    refine ⟨id, hruns, ?_⟩
    rw [hnone]
    nofun

theorem Stops.runs {container : Option Handle} {calls : List Exchange} {m m' : Memory}
    {name id : String} (h : Stops container calls) (hanswered : Answered m calls m')
    (hstop : .stop ∉ m.failing) :
    Runs name id m' ↔ Runs name id m ∧ container.map (·.id) ≠ some id := by
  cases h with
  | nothing =>
    obtain rfl : m' = m := hanswered
    simp
  | asked handle answer =>
    obtain ⟨-, rfl⟩ := hanswered
    show Runs name id (m.perform (.stop handle.id)).state ↔ _
    rw [Container.Memory.runs_stop _ hstop, Option.map_some, ne_eq, ne_eq, Option.some.injEq]

/-- What still runs under the name of a role after all were asked to stop is what was adrift. -/
theorem Tracked.runs_stopAll {w : World Memory} (h : Tracked w.roster w.backend)
    (hstop : .stop ∉ w.backend.failing) :
    (∃ id, Runs role.containerName id (w.take settings (.does .stopAll)).backend) ↔
      w.Adrift role := by
  let w' := ((Operation.stopAll.work settings).run w).2
  have hw' : (w.take settings (.does .stopAll)).backend = w'.backend := by
    show ((Operation.stopAll.transaction settings).run w).2.backend = _
    rw [Operation.run_transaction]
  have hrun : ∃ s : Account, s.Fits undisturbed w.backend w' ∧
      ∃ calls calls', Stops (w.roster.slot .updater).container calls ∧
        Stops (w.roster.slot .supervisor).container calls' ∧
        s = w.account.calling (calls ++ calls') :=
    Transaction.ensures_run_undisturbed (ensures_stopAll settings _)
  obtain ⟨s, hfits, calls, calls', hupdater, hsupervisor, rfl⟩ := hrun
  have hanswered : Answered w.backend (calls ++ calls') w'.backend := hfits.calls.answered
  obtain ⟨m₁, hfirst, hsecond⟩ := answered_append.1 hanswered
  have hstop' : .stop ∉ m₁.failing := by
    rw [hfirst.failing]
    exact hstop
  rw [hw']
  refine exists_congr fun id => ?_
  rw [hsupervisor.runs hsecond hstop', hupdater.runs hfirst hstop, and_assoc]
  refine and_congr_right fun hruns => ?_
  -- The other role has another container.
  have hother : ∀ other, other ≠ role → (w.roster.slot other).container.map (·.id) ≠ some id := by
    intro other hne hid
    obtain ⟨handle, hhandle, hsame⟩ := Option.map_eq_some_iff.1 hid
    exact h.ne_of_bears hhandle hne hruns.bears hsame.symm
  cases role with
  | updater => exact and_iff_left (hother .supervisor nofun)
  | supervisor => exact and_iff_right (hother .updater nofun)

theorem stray_iff_abandoned (settings : Settings) (deeds : List Deed) (role : Role) :
    Stray role (World.after settings deeds).roster (World.after settings deeds).backend ↔
      Abandoned settings role deeds := by
  induction deeds using List.reverseRecOn with
  | nil =>
    constructor
    · rintro ⟨-, id, c, hc, -⟩
      cases hc
    · rintro ⟨before, op, later, hdeeds, -⟩
      simp at hdeeds
  | append_singleton deeds deed ih =>
    rw [abandoned_concat, World.after_concat, ← ih]
    exact (World.take_tracked (World.after_tracked settings deeds)).2 role

/-- A container runs that the crew does not know of, after any operations one after the other
between which calls begin to fail or succeed again, iff one of them passed over the container of its
role and the role got none since.  Just that container is not stopped when all are asked to
stop. -/
theorem adrift_iff (settings : Settings) (deeds : List Deed) (role : Role) :
    let w := World.after settings deeds
    (w.Adrift role ↔ Abandoned settings role deeds) ∧
      (.stop ∉ w.backend.failing →
        ((∃ id, Runs role.containerName id (w.take settings (.does .stopAll)).backend) ↔
          w.Adrift role)) := by
  intro w
  have htracked : Tracked w.roster w.backend := World.after_tracked settings deeds
  refine ⟨?_, htracked.runs_stopAll⟩
  rw [htracked.adrift_iff_stray]
  exact stray_iff_abandoned settings deeds role

end Deeds

/-- A supervisor whose container could be neither signalled nor replaced. -/
def Sample.passedOver : List Deed :=
  [.does (.replace .supervisor (Sample.refs "sup:v1")), .fails .terminate, .fails .ensureImage,
    .does (.replace .supervisor (Sample.refs "sup:v2")), .recovers .terminate,
    .recovers .ensureImage]

/-- The container of the supervisor runs on, and is not even asked to stop. -/
theorem adrift_passedOver :
    let w := World.after developmentSettings Sample.passedOver
    w.backend.failing = [] ∧ w.Adrift .supervisor ∧
      Runs "node-runner-supervisor" "ctr_000000000000"
        (w.take developmentSettings (.does .stopAll)).backend ∧
      (w.take developmentSettings (.does .stopAll)).backend.targets .stop = [] := by
  refine ⟨rfl, ⟨"ctr_000000000000", ⟨_, rfl, rfl, rfl⟩, nofun⟩, ⟨_, rfl, rfl, rfl⟩, rfl⟩

end Caretaker.Crew
