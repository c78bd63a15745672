import Caretaker.Proofs.Alone
import Caretaker.Proofs.Faithful
import Caretaker.Proofs.History

/-!
# Settled slots

Whenever nobody holds the lock, every slot is settled: nothing was launched yet, or a container runs
what was asked for last, or a replace failed and its step tells whether a container is still there.
The image that is recorded is the one of the latest replace that succeeded, so it is the image of
the container only where the latest replace that got past the old container succeeded.

Main statements:

- `History.settled`: a slot that follows from turns is settled.
- `Ends.runs_iff`: when a role with a recorded image runs it.
-/

namespace Caretaker.Crew

open Container (Backend)

/-- A slot between two updates, after replaces of which the latest that succeeded brought the refs
`success`. -/
def Settled (settings : Settings) (role : Role) (success : Option ImageRefs) (slot : Slot) : Prop :=
  match slot.phase with
  | .idle => slot.image = none ∧ slot.container = none ∧ success = none
  | .running image => slot.image = some image ∧ ∃ refs handle, success = some refs ∧
      image = refs.of role ∧ slot.container = some handle ∧ handle.name = role.containerName ∧
      handle.descriptor = role.descriptor settings (settings.usedImage image) refs
  | .failed step => step ≠ .terminate ∧
      (slot.container.isSome = true ↔ step = .confirmExit ∨ step = .confirmStart) ∧
      slot.image = success.map (·.of role)
  | .stopping | .stopped | .pruning | .imageEnsured | .starting => False

/-- A slot that follows from turns is settled. -/
theorem History.settled {settings : Settings} {role : Role} {turns : List Turn} {slot : Slot}
    (h : History settings role turns slot) :
    Settled settings role (latestSuccess role turns) slot := by
  have himage := h.image
  rcases h.ends with ⟨hnone, rfl⟩ | ⟨turn, before, calls, hturn, hends, hfaithful⟩
  · -- No attempt was made, so none succeeded.
    refine ⟨rfl, rfl, ?_⟩
    cases hsuccess : latestSuccess role turns with
    | none => rfl
    | some refs =>
      rw [hsuccess] at himage
      cases himage
  · generalize hresult : turn.result = result at hends
    cases hends with
    | exitUnconfirmed old signalled cause hold =>
      refine ⟨by simp, ?_, himage⟩
      simp [hold]
    | pruneFailed => exact ⟨by simp, by simp, himage⟩
    | removalUnconfirmed => exact ⟨by simp, by simp, himage⟩
    | imageMissing => exact ⟨by simp, by simp, himage⟩
    | startFailed => exact ⟨by simp, by simp, himage⟩
    | startUnconfirmed => exact ⟨by simp, by simp, himage⟩
    | replaced removal handle hremoval =>
      have hsucceeded : turn.succeeded = true := by
        unfold Turn.succeeded
        rw [hresult]
      have hsuccess := latestSuccess_of_attempt hturn hsucceeded
      obtain ⟨hname, hdescriptor⟩ := handle_of_started hfaithful
      exact ⟨rfl, turn.refs, handle, hsuccess, rfl, rfl, hname, hdescriptor⟩

/-- Whether a slot has a container of the image that is used for a requested one, and says so. -/
def Slot.Runs (settings : Settings) (image : String) (slot : Slot) : Prop :=
  ∃ handle, slot.container = some handle ∧ slot.phase = .running image ∧
    handle.descriptor.image = settings.usedImage image

/-- Of the endings that record an image only the good one leaves a container that runs it. -/
theorem Ends.runs_iff {settings : Settings} {role : Role} {refs : ImageRefs} {image : String}
    {before slot : Slot} {calls : List Exchange} {turn : Turn}
    (h : Ends settings role refs before calls turn.result slot)
    (hfaithful : FaithfulCalls calls) (himage : slot.image = some image) :
    slot.Runs settings image ↔ turn.succeeded = true := by
  unfold Turn.succeeded
  generalize turn.result = result at h
  cases h with
  | replaced removal handle hremoval =>
    cases himage
    refine ⟨fun _ => rfl, fun _ => ⟨handle, rfl, rfl, ?_⟩⟩
    rw [(handle_of_started hfaithful).2, descriptor_image]
  | _ =>
    -- The phase tells of a failure.
    constructor
    · rintro ⟨handle, -, hphase, -⟩
      cases hphase
    · intro hsucceeded
      cases hsucceeded

/-- After a failure that is not fatal no container is left. -/
theorem Ends.container_of_not_fatal {settings : Settings} {role : Role} {refs : ImageRefs}
    {before slot : Slot} {calls : List Exchange} {turn : Turn}
    (h : Ends settings role refs before calls turn.result slot) (hfailed : turn.succeeded = false)
    (hmild : isFatal turn.result = false) :
    slot.container = none ∧ (slot.phase = .failed .ensureImage ∨ slot.phase = .failed .start) := by
  unfold Turn.succeeded at hfailed
  generalize turn.result = result at h hfailed hmild
  cases h with
  | exitUnconfirmed => cases hmild
  | pruneFailed => cases hmild
  | removalUnconfirmed => cases hmild
  | imageMissing => exact ⟨rfl, .inl rfl⟩
  | startFailed => exact ⟨rfl, .inr rfl⟩
  | startUnconfirmed => cases hmild
  | replaced => cases hfailed

/-! ## A supervisor and its updates -/

namespace Sample

open Container (Memory)
open Session (Reachable Idle)

/-- Anything may happen to the backend between two steps. -/
def anyMove (_ _ : Memory) : Prop := True

/-- The supervisor was launched. -/
def launched : Session Memory :=
  (Session.fresh {}).conclude developmentSettings (.replace .supervisor (refs "sup:v1"))

/-- An update removed the supervisor, and its own image could not be had. -/
def stranded : Session Memory :=
  (launched.moved (.fail .ensureImage)).conclude developmentSettings
    (.replaceIfChanged .supervisor (refs "sup:v2"))

/-- After that the images before the update were published again. -/
def rolledBack : Session Memory :=
  (stranded.moved (.recover .ensureImage)).conclude developmentSettings
    (.replaceIfChanged .supervisor (refs "sup:v1"))

/-- An update started a supervisor, and its start was not confirmed. -/
def unconfirmed : Session Memory :=
  (launched.moved (.fail .awaitStart)).conclude developmentSettings
    (.replace .supervisor (refs "sup:v2"))

theorem idle_launched : launched.Idle := (Session.idle_fresh _).conclude _ _

theorem idle_stranded : stranded.Idle := (idle_launched.moved _).conclude _ _

theorem reachable_launched : Reachable developmentSettings anyMove {} launched :=
  Reachable.concluded .start (Session.idle_fresh _) _

theorem reachable_stranded : Reachable developmentSettings anyMove {} stranded :=
  (reachable_launched.moved trivial).concluded (idle_launched.moved _) _

theorem reachable_unconfirmed : Reachable developmentSettings anyMove {} unconfirmed :=
  (reachable_launched.moved trivial).concluded (idle_launched.moved _) _

/-- The roll-back is a step, and what was in the ledger before stays there. -/
theorem step_rolledBack : ∃ s, Reachable developmentSettings anyMove {} s ∧
    s.ledger = stranded.ledger ∧
    Session.Step developmentSettings anyMove s rolledBack :=
  (reachable_stranded.moved trivial).conclude (idle_stranded.moved _) _

end Sample

section Sessions

variable {ρ : Type} [Backend ρ] {settings : Settings} {outside : ρ → ρ → Prop} {b : ρ}
  {s : Session ρ}

/-- While nobody holds the lock, every slot is settled and the copy of the roster is up to date. -/
theorem settled_of_free (hfaithful : FaithfulStart ρ)
    (h : Session.Reachable settings outside b s) (hfree : s.world.lock.holders = []) :
    (∀ role, Settled settings role (latestSuccess role s.turns) (s.world.roster.slot role)) ∧
      s.world.lastKnown = s.world.roster := by
  obtain ⟨hcopy, hhistory⟩ :=
    h.settled (kept_history hfaithful outside) (history_start settings) hfree
  exact ⟨fun role => (hhistory role).settled, hcopy⟩

theorem settled_of_free_stranded :
    Sample.stranded.world.lock.holders = [] ∧
      (∀ role, Settled developmentSettings role (latestSuccess role Sample.stranded.turns)
        (Sample.stranded.world.roster.slot role)) ∧
      Sample.stranded.world.lastKnown = Sample.stranded.world.roster :=
  have hfree : Sample.stranded.world.lock.holders = [] := rfl
  ⟨hfree, settled_of_free Container.Memory.faithful Sample.reachable_stranded hfree⟩

/-- While nobody holds the lock, a container in a slot is the one that the latest replace started
that got past the one before it: it has the descriptor and so the image that is used for what that
replace asked for, and that replace told its id.  If it succeeded, that is the recorded image; else
its start was not confirmed, and the recorded image is still the one of the latest replace that
succeeded. -/
theorem image_of_container (hfaithful : FaithfulStart ρ)
    (h : Session.Reachable settings outside b s) (hfree : s.world.lock.holders = []) {role : Role}
    {handle : Handle} (hhandle : (s.world.roster.slot role).container = some handle) :
    ∃ turn, latest role Turn.cleared s.turns = some turn ∧
      handle.descriptor =
        role.descriptor settings (settings.usedImage (turn.refs.of role)) turn.refs ∧
      handle.descriptor.image = settings.usedImage (turn.refs.of role) ∧
      (s.world.roster.slot role).image = (latestSuccess role s.turns).map (·.of role) ∧
      (turn.result = .ok (.replaced (turn.refs.of role) handle.id) ∧
          (s.world.roster.slot role).image = some (turn.refs.of role) ∨
        ∃ e, turn.result = .error e ∧ e.step = .confirmStart ∧
          e.containerId = some handle.id) := by
  obtain ⟨-, hhistory⟩ :=
    h.settled (kept_history hfaithful outside) (history_start settings) hfree
  obtain ⟨turn, hturn, hdescriptor, hresult⟩ := (hhistory role).container hhandle
  have himage : handle.descriptor.image = settings.usedImage (turn.refs.of role) := by
    rw [hdescriptor, descriptor_image]
  exact ⟨turn, hturn, hdescriptor, himage, (hhistory role).image, hresult⟩

theorem image_of_container_unconfirmed :
    ∃ handle, (Sample.unconfirmed.world.roster.slot .supervisor).container = some handle ∧
      ∃ turn, latest .supervisor Turn.cleared Sample.unconfirmed.turns = some turn ∧
        handle.descriptor = Role.supervisor.descriptor developmentSettings
          (developmentSettings.usedImage (turn.refs.of .supervisor)) turn.refs ∧
        handle.descriptor.image = developmentSettings.usedImage (turn.refs.of .supervisor) ∧
        (Sample.unconfirmed.world.roster.slot .supervisor).image =
          (latestSuccess .supervisor Sample.unconfirmed.turns).map (·.of .supervisor) ∧
        (turn.result = .ok (.replaced (turn.refs.of .supervisor) handle.id) ∧
            (Sample.unconfirmed.world.roster.slot .supervisor).image =
              some (turn.refs.of .supervisor) ∨
          ∃ e, turn.result = .error e ∧ e.step = .confirmStart ∧
            e.containerId = some handle.id) :=
  ⟨_, rfl, image_of_container Container.Memory.faithful Sample.reachable_unconfirmed rfl rfl⟩

/-- The recorded image is not that of the container whose start was not confirmed. -/
theorem image_of_container_differs :
    ∃ handle, Session.Reachable developmentSettings Sample.anyMove {} Sample.unconfirmed ∧
      Sample.unconfirmed.world.lock.holders = [] ∧
      (Sample.unconfirmed.world.roster.slot .supervisor).container = some handle ∧
      (Sample.unconfirmed.world.roster.slot .supervisor).image = some "sup:v1" ∧
      handle.descriptor.image ≠ developmentSettings.usedImage "sup:v1" := by
  refine ⟨_, Sample.reachable_unconfirmed, rfl, rfl, rfl, ?_⟩
  decide

/-- When a comparison leaves a role alone, the role runs what is asked for just where its latest
attempt succeeded.  Else, without a fatal failure, it runs nothing at all. -/
theorem unchanged_iff (hfaithful : FaithfulStart ρ) (h : Session.Reachable settings outside b s)
    {s' : Session ρ} (hstep : Session.Step settings outside s s') {op : Operation}
    {result : Result} (hledger : s'.ledger = (op, result) :: s.ledger) {role : Role}
    {refs : ImageRefs} (hturn : ⟨role, refs, false, .ok .unchanged⟩ ∈ op.turns result) :
    ∃ attempt, latest role Turn.attempted s'.turns = some attempt ∧
      ((s'.world.roster.slot role).Runs settings (refs.of role) ↔ attempt.succeeded = true) ∧
      ((∀ turn ∈ s'.turns, isFatal turn.result = false) → attempt.succeeded = false →
        (s'.world.roster.slot role).container = none ∧
          ((s'.world.roster.slot role).phase = .failed .ensureImage ∨
            (s'.world.roster.slot role).phase = .failed .start)) := by
  have hop : op.isUpdate = true := by
    by_contra hnot
    rw [Operation.turns_of_not_update (Bool.eq_false_iff.2 hnot)] at hturn
    cases hturn
  obtain ⟨-, hhistory⟩ := h.settled_of_update (kept_history hfaithful outside)
    (history_start settings) hstep hop hledger
  have himage : (s'.world.roster.slot role).image = some (refs.of role) := by
    have hslot := hhistory role
    rw [Session.turns_of_ledger hledger] at hslot
    refine hslot.image_of_unchanged (fun other hother => ?_) (List.mem_reverse.2 hturn)
    exact Operation.turns_alike hturn rfl other (List.mem_reverse.1 hother)
  rcases (hhistory role).ends with ⟨-, hslot⟩ | ⟨attempt, before, calls, hattempt, hends, hcalls⟩
  · -- Without an attempt there is no image to compare with.
    rw [hslot] at himage
    cases himage
  · refine ⟨attempt, hattempt, hends.runs_iff hcalls himage, fun hmild hfailed => ?_⟩
    exact hends.container_of_not_fatal hfailed (hmild attempt (List.mem_of_find?_eq_some hattempt))

theorem unchanged_iff_rolledBack :
    ∃ attempt, latest .supervisor Turn.attempted Sample.rolledBack.turns = some attempt ∧
      ((Sample.rolledBack.world.roster.slot .supervisor).Runs developmentSettings "sup:v1" ↔
        attempt.succeeded = true) ∧
      ((∀ turn ∈ Sample.rolledBack.turns, isFatal turn.result = false) →
        attempt.succeeded = false →
        (Sample.rolledBack.world.roster.slot .supervisor).container = none ∧
          ((Sample.rolledBack.world.roster.slot .supervisor).phase = .failed .ensureImage ∨
            (Sample.rolledBack.world.roster.slot .supervisor).phase = .failed .start)) := by
  obtain ⟨s, hreach, hledger, hstep⟩ := Sample.step_rolledBack
  have hentry : Sample.rolledBack.ledger =
      (.replaceIfChanged .supervisor (Sample.refs "sup:v1"), .replaced (.ok .unchanged)) ::
        s.ledger := by
    rw [hledger]
    rfl
  have hturn : ⟨.supervisor, Sample.refs "sup:v1", false, .ok .unchanged⟩ ∈
      (Operation.replaceIfChanged .supervisor (Sample.refs "sup:v1")).turns
        (.replaced (.ok .unchanged)) := List.mem_singleton.2 rfl
  exact unchanged_iff Container.Memory.faithful hreach hstep hentry hturn

/-- A role can be left alone that runs nothing, though no replace failed fatally. -/
theorem unchanged_without_container :
    ∃ s, Session.Reachable developmentSettings Sample.anyMove {} s ∧
      Session.Step developmentSettings Sample.anyMove s Sample.rolledBack ∧
      Sample.rolledBack.ledger =
        (.replaceIfChanged .supervisor (Sample.refs "sup:v1"), .replaced (.ok .unchanged)) ::
          s.ledger ∧
      (∀ turn ∈ Sample.rolledBack.turns, isFatal turn.result = false) ∧
      ¬ (Sample.rolledBack.world.roster.slot .supervisor).Runs developmentSettings "sup:v1" := by
  obtain ⟨s, hreach, hledger, hstep⟩ := Sample.step_rolledBack
  refine ⟨s, hreach, hstep, ?_, by decide, ?_⟩
  · rw [hledger]
    rfl
  · rintro ⟨handle, hhandle, -⟩
    have hnone : (Sample.rolledBack.world.roster.slot .supervisor).container = none := rfl
    rw [hnone] at hhandle
    cases hhandle

end Sessions

end Caretaker.Crew
