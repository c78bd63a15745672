import Caretaker.Crew.Replace
import Caretaker.Proofs.Account

/-!
# How a replace ends

A replace has seven endings: six where a step fails, and the one where all succeed.  Each fixes the
calls that were made, the result, and the slot of the role, and no other slot is touched.

Main statements:

- `Replace.ensures_teardown`, `Replace.ensures_launch`: what the parts of a replace do.
- `ensures_replaceLocked`: a replace comes to one of the endings.
-/

namespace Caretaker

/-- The image that is used for a requested one: in development the requested one, else the release
as it is pulled from the registry, or the requested one where that is not the ref of a release. -/
def Settings.usedImage (settings : Settings) (image : String) : String :=
  if settings.development then image
  else
    match Registry.refIn settings.registry image with
    | .ok used => used
    | .error _ => image

namespace Crew

open Script Transaction

/-! ## Endings -/

/-- The calls that remove the container of a slot, if there is one.  Whether the signal could be
delivered does not matter. -/
inductive Removes : Option Handle → List Exchange → Prop where
  | nothing : Removes none []
  | removed (old : Handle) (signalled : Except Container.Fault Unit) :
      Removes (some old)
        [⟨.terminate old.id, signalled⟩, ⟨.awaitExit old.id, .ok ()⟩, ⟨.prune, .ok ()⟩,
          ⟨.awaitPrune old.id, .ok ()⟩]

/-- The endings of a replace that gives `role` the image of `refs`: the slot before, the calls, the
result, and the slot after. -/
inductive Ends (settings : Settings) (role : Role) (refs : ImageRefs) (slot : Slot) :
    List Exchange → Replaced → Slot → Prop where
  | exitUnconfirmed (old : Handle) (signalled : Except Container.Fault Unit)
      (cause : Container.Fault) (hold : slot.container = some old) :
      Ends settings role refs slot
        [⟨.terminate old.id, signalled⟩, ⟨.awaitExit old.id, .error cause⟩]
        (.error ⟨role, .confirmExit, refs.of role, some old.id, cause⟩)
        { slot with phase := .failed .confirmExit }
  | pruneFailed (old : Handle) (signalled : Except Container.Fault Unit)
      (cause : Container.Fault) (hold : slot.container = some old) :
      Ends settings role refs slot
        [⟨.terminate old.id, signalled⟩, ⟨.awaitExit old.id, .ok ()⟩, ⟨.prune, .error cause⟩]
        (.error ⟨role, .prune, refs.of role, some old.id, cause⟩)
        { slot with container := none, phase := .failed .prune }
  | removalUnconfirmed (old : Handle) (signalled : Except Container.Fault Unit)
      (cause : Container.Fault) (hold : slot.container = some old) :
      Ends settings role refs slot
        [⟨.terminate old.id, signalled⟩, ⟨.awaitExit old.id, .ok ()⟩, ⟨.prune, .ok ()⟩,
          ⟨.awaitPrune old.id, .error cause⟩]
        (.error ⟨role, .confirmPrune, refs.of role, some old.id, cause⟩)
        { slot with container := none, phase := .failed .confirmPrune }
  | imageMissing (removal : List Exchange) (cause : Container.Fault)
      (hremoval : Removes slot.container removal) :
      Ends settings role refs slot
        (removal ++ [⟨.ensureImage role.name (settings.usedImage (refs.of role)), .error cause⟩])
        (.error ⟨role, .ensureImage, refs.of role, none, cause⟩)
        { slot with container := none, phase := .failed .ensureImage }
  | startFailed (removal : List Exchange) (cause : Container.Fault)
      (hremoval : Removes slot.container removal) :
      Ends settings role refs slot
        (removal ++
          [⟨.ensureImage role.name (settings.usedImage (refs.of role)), .ok ()⟩,
            ⟨.start (role.descriptor settings (settings.usedImage (refs.of role)) refs),
              .error cause⟩])
        (.error ⟨role, .start, refs.of role, none, cause⟩)
        { slot with container := none, phase := .failed .start }
  | startUnconfirmed (removal : List Exchange) (handle : Handle) (cause : Container.Fault)
      (hremoval : Removes slot.container removal) :
      Ends settings role refs slot
        (removal ++
          [⟨.ensureImage role.name (settings.usedImage (refs.of role)), .ok ()⟩,
            ⟨.start (role.descriptor settings (settings.usedImage (refs.of role)) refs),
              .ok handle⟩,
            ⟨.awaitStart handle.id, .error cause⟩])
        (.error ⟨role, .confirmStart, refs.of role, some handle.id, cause⟩)
        { slot with container := some handle, phase := .failed .confirmStart }
  | replaced (removal : List Exchange) (handle : Handle)
      (hremoval : Removes slot.container removal) :
      Ends settings role refs slot
        (removal ++
          [⟨.ensureImage role.name (settings.usedImage (refs.of role)), .ok ()⟩,
            ⟨.start (role.descriptor settings (settings.usedImage (refs.of role)) refs),
              .ok handle⟩,
            ⟨.awaitStart handle.id, .ok ()⟩])
        (.ok (.replaced (refs.of role) handle.id))
        { image := some (refs.of role), container := some handle
          phase := .running (refs.of role) }

/-! ## What each part of a replace does -/

/-- An account in which one slot and its copy changed, and more calls were made. -/
def Account.after (role : Role) (slot copy : Slot) (calls : List Exchange) (s : Account) :
    Account where
  roster := s.roster.put role slot
  lastKnown := s.lastKnown.put role copy
  calls := s.calls ++ calls

section After

variable (role : Role) (slot copy : Slot) (calls : List Exchange) (s : Account)

@[simp] theorem Account.after_after (slot' copy' : Slot) (calls' : List Exchange) :
    (s.after role slot copy calls).after role slot' copy' calls' =
      s.after role slot' copy' (calls ++ calls') := by
  simp [after]

@[simp] theorem Account.called_after (exchange : Exchange) :
    (s.after role slot copy calls).called exchange =
      s.after role slot copy (calls ++ [exchange]) := by
  simp [after, called]

@[simp] theorem Account.set_after (slot' : Slot) :
    (s.after role slot copy calls).set role slot' = s.after role slot' copy calls := by
  simp [after, set]

@[simp] theorem Account.published_after :
    (s.after role slot copy calls).published role = s.after role slot slot calls := by
  simp [after, published]

@[simp] theorem Account.slot_after :
    (s.after role slot copy calls).roster.slot role = slot := by
  simp [after]

/-- Nothing happened yet. -/
theorem Account.after_slot :
    s.after role (s.roster.slot role) (s.lastKnown.slot role) [] = s := by
  simp [after]

end After

namespace Replace

variable {settings : Settings} {role : Role} {refs : ImageRefs} {slot : Slot} {s : Account}

@[simp] theorem ensures_enter {phase : Phase} {post : Slot → Account → Prop} :
    (enter role slot phase).Ensures Account.rule post s ↔
      post { slot with phase } (s.after role { slot with phase } { slot with phase } []) := by
  simp [enter, ensures_bind, Account.after, Account.set, Account.published]

@[simp] theorem ensures_callAt {fault : Container.Fault → ReplaceError} {c : Container.Call}
    {post : Except ReplaceError c.Value → Account → Prop} :
    (callAt fault c).run.Ensures Account.rule post s ↔
      (∀ cause, post (.error (fault cause)) (s.called ⟨c, .error cause⟩)) ∧
      ∀ value, post (.ok value) (s.called ⟨c, .ok value⟩) := by
  unfold callAt
  rw [ExceptT.run_mk, ensures_bind, ensures_call]
  constructor
  · intro h
    exact ⟨fun cause => h (.error cause), fun value => h (.ok value)⟩
  · rintro ⟨herror, hok⟩ (cause | value)
    · exact herror cause
    · exact hok value

/-- Every replace is begun on the slot as it is; a teardown ends in one of three failures, or with
the container gone. -/
theorem ensures_teardown {image : String} {old : Handle}
    {post : Except ReplaceError Slot → Account → Prop} :
    (teardown role image slot old).run.Ensures Account.rule post s ↔
      ∀ signalled : Except Container.Fault Unit,
        let stopping : Slot := { slot with phase := .stopping }
        let pruning : Slot := { slot with container := none, phase := .pruning }
        (∀ cause, post (.error ⟨role, .confirmExit, image, some old.id, cause⟩)
          (s.after role stopping stopping
            [⟨.terminate old.id, signalled⟩, ⟨.awaitExit old.id, .error cause⟩])) ∧
        (∀ cause, post (.error ⟨role, .prune, image, some old.id, cause⟩)
          (s.after role pruning pruning
            [⟨.terminate old.id, signalled⟩, ⟨.awaitExit old.id, .ok ()⟩,
              ⟨.prune, .error cause⟩])) ∧
        (∀ cause, post (.error ⟨role, .confirmPrune, image, some old.id, cause⟩)
          (s.after role pruning pruning
            [⟨.terminate old.id, signalled⟩, ⟨.awaitExit old.id, .ok ()⟩, ⟨.prune, .ok ()⟩,
              ⟨.awaitPrune old.id, .error cause⟩])) ∧
        post (.ok pruning)
          (s.after role pruning pruning
            [⟨.terminate old.id, signalled⟩, ⟨.awaitExit old.id, .ok ()⟩, ⟨.prune, .ok ()⟩,
              ⟨.awaitPrune old.id, .ok ()⟩]) := by
  unfold teardown
  simp only [ensures_run_bind, ensures_run_lift, ensures_enter, ensures_call (c := .terminate _)]
  apply forall_congr'
  intro signalled
  -- A signal that was not delivered is told to the log, and makes no other difference.
  cases signalled <;>
  · simp only [ensures_run_bind, ensures_run_lift, ensures_log, ensures_callAt (c := .awaitExit _),
      ensures_callAt (c := .prune), ensures_callAt (c := .awaitPrune _), ensures_enter,
      ensures_run_pure, Account.called_after, Account.after_after]
    constructor
    · rintro ⟨hexit, h⟩
      obtain ⟨hprune, h⟩ := h ()
      obtain ⟨hconfirm, h⟩ := h ()
      exact ⟨hexit, hprune, hconfirm, h ()⟩
    · rintro ⟨hexit, hprune, hconfirm, h⟩
      exact ⟨hexit, fun _ => ⟨hprune, fun _ => ⟨hconfirm, fun _ => h⟩⟩⟩

theorem usedImage_of_resolve_ok {image used : String}
    (h : resolve settings image = .ok used) : settings.usedImage image = used := by
  unfold resolve at h
  unfold Settings.usedImage
  split at h
  · next hdev =>
    rw [if_pos hdev]
    exact Except.ok.inj h
  · next hdev => rw [if_neg hdev, h]

theorem usedImage_of_resolve_error {image : String} {fault : Registry.Fault}
    (h : resolve settings image = .error fault) : settings.usedImage image = image := by
  unfold resolve at h
  unfold Settings.usedImage
  split at h
  · cases h
  · next hdev => rw [if_neg hdev, h]

/-- The image is ensured as it is used, and a failure gives its cause. -/
theorem ensures_ensureImage {image : String}
    {post : Except Container.Fault String → Account → Prop} :
    (ensureImage settings role image).Ensures Account.rule post s ↔
      (∀ cause, post (.error cause)
        (s.called ⟨.ensureImage role.name (settings.usedImage image), .error cause⟩)) ∧
      post (.ok (settings.usedImage image))
        (s.called ⟨.ensureImage role.name (settings.usedImage image), .ok ()⟩) := by
  unfold ensureImage
  cases hresolve : resolve settings image with
  | error fault =>
    rw [usedImage_of_resolve_error hresolve]
    simp only [ensures_bind, ensures_log, ensures_call (c := .ensureImage _ _), pure_eq,
      ensures_done]
    constructor
    · intro h
      exact ⟨fun cause => h (.error cause), h (.ok ())⟩
    · rintro ⟨herror, hok⟩ (cause | ⟨⟨⟩⟩)
      · exact herror cause
      · exact hok
  | ok used =>
    rw [usedImage_of_resolve_ok hresolve]
    simp only [ensures_bind, ensures_call (c := .ensureImage _ _), pure_eq, ensures_done]
    constructor
    · intro h
      exact ⟨fun cause => h (.error cause), h (.ok ())⟩
    · rintro ⟨herror, hok⟩ (cause | ⟨⟨⟩⟩)
      · exact herror cause
      · exact hok

/-- A container that started is recorded whether its start is confirmed or not, and the image only
if it is. -/
theorem ensures_launch {used : String} {post : Except ReplaceError Outcome → Account → Prop} :
    (launch settings role refs slot used).run.Ensures Account.rule post s ↔
      let image := refs.of role
      let start : Container.Call := .start (role.descriptor settings used refs)
      let starting : Slot := { slot with phase := .starting }
      (∀ cause, post (.error ⟨role, .start, image, none, cause⟩)
        (s.after role starting starting [⟨start, .error cause⟩])) ∧
      ∀ handle : Handle,
        (∀ cause, post (.error ⟨role, .confirmStart, image, some handle.id, cause⟩)
          (s.after role { starting with container := some handle } starting
            [⟨start, .ok handle⟩, ⟨.awaitStart handle.id, .error cause⟩])) ∧
        post (.ok (.replaced image handle.id))
          (s.after role
            { image := some image, container := some handle, phase := .running image } starting
            [⟨start, .ok handle⟩, ⟨.awaitStart handle.id, .ok ()⟩]) := by
  unfold launch
  simp only [ensures_run_bind, ensures_run_lift, ensures_enter, ensures_callAt (c := .start _),
    ensures_callAt (c := .awaitStart _), ensures_setSlot, ensures_log, ensures_run_pure,
    Account.called_after, Account.set_after]
  constructor
  · rintro ⟨hstart, h⟩
    exact ⟨hstart, fun handle => ⟨(h handle).1, (h handle).2 ()⟩⟩
  · rintro ⟨hstart, h⟩
    exact ⟨hstart, fun handle => ⟨(h handle).1, fun _ => (h handle).2⟩⟩

/-! ## A replace as a whole -/

/-- What is known after the steps of a replace: they come to an ending, but for the phase of a
failure, which is set last. -/
def Stepped (settings : Settings) (role : Role) (refs : ImageRefs) (s : Account)
    (result : Replaced) (s' : Account) : Prop :=
  ∃ slot copy calls, s' = s.after role slot copy calls ∧
    Ends settings role refs (s.roster.slot role) calls result
      (match result with
      | .ok _ => slot
      | .error e => { slot with phase := .failed e.step })

/-- Sends the signal to terminate to a container that is replaced, and tells how that went. -/
def signal (role : Role) (old : Handle) : Transaction Unit := do
  let who : List (String × EventValue) :=
    [("role", role.name), ("container_id", old.id), ("name", old.name)]
  match ← call (.terminate old.id) with
  | .ok () => log .info "Interrupted" who
  | .error cause =>
    log .warn "Error stopping container"
      (who ++ [("step", .text ReplaceStep.terminate.wording), ("error", .text cause.message)])

/-- Waits until a container that is replaced has exited, and removes it. -/
def remove (role : Role) (image : String) (slot : Slot) (old : Handle) :
    ExceptT ReplaceError (Script signature) Slot := do
  callAt (.mk role .confirmExit image (some old.id)) (.awaitExit old.id)
  let slot ← enter role { slot with container := none } .stopped
  let slot ← enter role slot .pruning
  callAt (.mk role .prune image (some old.id)) .prune
  callAt (.mk role .confirmPrune image (some old.id)) (.awaitPrune old.id)
  return slot

theorem teardown_eq (role : Role) (image : String) (slot : Slot) (old : Handle) :
    teardown role image slot old = (do
      let slot ← enter role slot .stopping
      signal role old
      remove role image slot old) := by
  unfold teardown
  refine bind_congr fun slot => ?_
  unfold signal
  rw [liftM_bind, LawfulMonad.bind_assoc]
  refine bind_congr fun signalled => ?_
  cases signalled <;> rfl

/-- Makes sure that an image is there which is used as it is. -/
def ensureUsed (role : Role) (used : String) : Transaction (Except Container.Fault String) := do
  match ← call (.ensureImage role.name used) with
  | .ok () => return .ok used
  | .error cause =>
    log .warn "Failed to ensure local image"
      [("role", role.name), ("image_ref", used), ("error", cause.message)]
    return .error cause

theorem ensureImage_eq (settings : Settings) (role : Role) (image : String) :
    ensureImage settings role image =
      match resolve settings image with
      | .ok used => ensureUsed role used
      | .error fault => (do
        log .warn "Not a registry release ref, using it as is"
          [("role", role.name), ("image_ref", image), ("error", fault.message)]
        ensureUsed role image) := by
  unfold ensureImage
  cases resolve settings image <;> rfl

/-- What a replace does once no container is in its way. -/
def fill (settings : Settings) (role : Role) (refs : ImageRefs) (slot : Slot) :
    ExceptT ReplaceError (Script signature) Outcome := do
  let used ← ExceptT.mk do
    match ← ensureImage settings role (refs.of role) with
    | .ok used => return .ok used
    | .error cause => return .error (.mk role .ensureImage (refs.of role) none cause)
  let slot ← enter role slot .imageEnsured
  launch settings role refs slot used

theorem steps_eq : steps settings role refs slot =
    match slot.container with
    | none => fill settings role refs slot
    | some old => teardown role (refs.of role) slot old >>= fill settings role refs := by
  unfold steps
  cases slot.container <;> rfl

/-- Once no container is in the way, the steps come to an ending of the replace. -/
theorem ensures_fill (settings : Settings) (refs : ImageRefs) (copy : Slot) (phase : Phase)
    {removal : List Exchange} (hremoval : Removes (s.roster.slot role).container removal) :
    (fill settings role refs { s.roster.slot role with container := none, phase }).run.Ensures
      Account.rule (Stepped settings role refs s)
      (s.after role { s.roster.slot role with container := none, phase } copy removal) := by
  unfold fill
  simp only [ensures_run_bind, ExceptT.run_mk, ensures_bind, ensures_ensureImage, pure_eq,
    ensures_done, ensures_run_lift, ensures_enter, ensures_launch, Account.called_after,
    Account.after_after, List.append_assoc]
  refine ⟨fun cause => ?_, fun cause => ?_, fun handle => ⟨fun cause => ?_, ?_⟩⟩
  · exact ⟨_, _, _, rfl, .imageMissing removal cause hremoval⟩
  · exact ⟨_, _, _, rfl, .startFailed removal cause hremoval⟩
  · exact ⟨_, _, _, rfl, .startUnconfirmed removal handle cause hremoval⟩
  · exact ⟨_, _, _, rfl, .replaced removal handle hremoval⟩

theorem ensures_steps (hslot : s.roster.slot role = slot) :
    (steps settings role refs slot).run.Ensures Account.rule (Stepped settings role refs s) s := by
  subst hslot
  rw [steps_eq]
  cases hold : (s.roster.slot role).container with
  | none =>
    -- Nothing has to be removed: the slot and its copy are still as they were.
    have hremoval : Removes (s.roster.slot role).container [] := by
      rw [hold]
      exact .nothing
    have hslot : { s.roster.slot role with container := none } = s.roster.slot role := by
      rw [← hold]
    have hfill := ensures_fill settings refs (s.lastKnown.slot role) (s.roster.slot role).phase
      hremoval
    rw [hslot, Account.after_slot] at hfill
    exact hfill
  | some old =>
    simp only [ensures_run_bind, ensures_teardown]
    intro signalled
    refine ⟨fun cause => ?_, fun cause => ?_, fun cause => ?_, ?_⟩
    · exact ⟨_, _, _, rfl, .exitUnconfirmed old signalled cause hold⟩
    · exact ⟨_, _, _, rfl, .pruneFailed old signalled cause hold⟩
    · exact ⟨_, _, _, rfl, .removalUnconfirmed old signalled cause hold⟩
    · refine ensures_fill settings refs _ _ ?_
      rw [hold]
      exact .removed old signalled

end Replace

/-- A replace comes to one of its endings, and publishes it. -/
theorem ensures_replaceLocked {settings : Settings} {role : Role} {refs : ImageRefs}
    {s : Account} :
    (replaceLocked settings role refs).Ensures Account.rule (fun result s' =>
      ∃ slot calls, Ends settings role refs (s.roster.slot role) calls result slot ∧
        s' = s.after role slot slot calls) s := by
  unfold replaceLocked
  simp only [ensures_bind, ensures_slot, ensures_log]
  refine (Replace.ensures_steps rfl).mono Account.rule_monotone ?_
  rintro (e | outcome) s' ⟨slot, copy, calls, rfl, hends⟩
  · -- After a failure the phase is set before the slot is published.
    simp only [ensures_bind, ensures_slot, ensures_setSlot, ensures_publish, pure_eq, ensures_done,
      Account.slot_after, Account.set_after, Account.published_after]
    exact ⟨_, calls, hends, rfl⟩
  · simp only [ensures_bind, ensures_publish, pure_eq, ensures_done, Account.published_after]
    exact ⟨slot, calls, hends, rfl⟩

end Crew
end Caretaker
